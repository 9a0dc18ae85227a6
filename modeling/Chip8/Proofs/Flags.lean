import Chip8.Proofs.Footprint
import Chip8.Proofs.Numbers

/-!
The arithmetic between registers, and VF. Result and flag of an operation together say what the operands were worth
(`AluOp.Law`), and there are no two ways of saying it (`AluOp.Law.unique`); so the flag is known from the operands
alone, also where VF is one of them or receives the result. That registers are read before any is written is what
`Machine.flags_of_execute` states, for this arithmetic, for additions to I and for drawing.
-/
namespace Chip8
variable {τ : Type}

theorem toNat_decide (p : Prop) [Decidable p] : (decide p).toNat = if p then 1 else 0 := by
  by_cases holds : p <;> simp [holds]

/-- A byte and a carry are known from what they are worth together. -/
theorem eq_of_worth {r r' : Byte} {b b' : Bool} (same : r.toNat + 256 * b.toNat = r'.toNat + 256 * b'.toNat) :
    r = r' ∧ b = b' := by
  have narrow := r.isLt
  have narrow' := r'.isLt
  have bit : b.toNat = b'.toNat := by omega
  refine ⟨BitVec.eq_of_toNat_eq (by omega), ?_⟩
  cases b <;> cases b' <;> trivial

namespace AluOp

/-- What the result and the flag of an operation, if it has one, owe to its operands: the old values of its two
    registers, and the value that a shift takes. -/
def Law : AluOp → Byte → Byte → Byte → Byte → Option Bool → Prop
  | copy, _, w, _, r, none => r = w
  | or, v, w, _, r, none => r = v ||| w
  | and, v, w, _, r, none => r = v &&& w
  | xor, v, w, _, r, none => r = v ^^^ w
  | add, v, w, _, r, some f => r.toNat + 256 * f.toNat = v.toNat + w.toNat
  | subtract, v, w, _, r, some f => (r.toNat : Int) = v.toNat - w.toNat + 256 * (1 - f.toNat)
  | shiftRight, _, _, s, r, some f => 2 * r.toNat + f.toNat = s.toNat
  | subtractFrom, v, w, _, r, some f => (r.toNat : Int) = w.toNat - v.toNat + 256 * (1 - f.toNat)
  | shiftLeft, _, _, s, r, some f => r.toNat + 256 * f.toNat = 2 * s.toNat
  | _, _, _, _, _, _ => False

/-- The operation keeps to its law. A shift takes its own operand for the second one. -/
theorem law_eval (op : AluOp) (v w s : Byte) :
    op.Law v w s (op.eval v (if op.isShift then s else w)).1 (op.eval v (if op.isShift then s else w)).2 := by
  have narrow := v.isLt
  have small := w.isLt
  have short := s.isLt
  cases op with
  | copy | or | and | xor => rfl
  | add =>
    show (v + w).toNat + 256 * (decide (255 < v.toNat + w.toNat)).toNat = v.toNat + w.toNat
    rw [BitVec.toNat_add, toNat_decide]
    split <;> omega
  | subtract =>
    show ((v - w).toNat : Int) = v.toNat - w.toNat + 256 * (1 - (decide (w.toNat ≤ v.toNat)).toNat)
    rw [BitVec.toNat_sub, toNat_decide]
    split <;> omega
  | subtractFrom =>
    show ((w - v).toNat : Int) = w.toNat - v.toNat + 256 * (1 - (decide (v.toNat ≤ w.toNat)).toNat)
    rw [BitVec.toNat_sub, toNat_decide]
    split <;> omega
  | shiftRight =>
    show 2 * (s >>> 1).toNat + (s.getLsbD 0).toNat = s.toNat
    rw [BitVec.toNat_ushiftRight, Nat.shiftRight_eq_div_pow, BitVec.getLsbD, Nat.toNat_testBit]
    omega
  | shiftLeft =>
    show (s <<< 1).toNat + 256 * (s.getLsbD 7).toNat = 2 * s.toNat
    rw [BitVec.toNat_shiftLeft, Nat.shiftLeft_eq, BitVec.getLsbD, Nat.toNat_testBit]
    omega

/-- An operation that has no flag has none under its law, and every other one has a flag. -/
theorem Law.isPlain {op : AluOp} {v w s r : Byte} {f : Option Bool} (law : op.Law v w s r f) :
    op.isPlain = f.isNone := by
  cases f with
  | none =>
    cases op with
    | copy | or | and | xor => rfl
    | _ => exact law.elim
  | some b =>
    cases op with
    | copy | or | and | xor => exact law.elim
    | _ => rfl

/-- The operands leave no choice of result and flag. -/
theorem Law.unique {op : AluOp} {v w s r r' : Byte} {f f' : Option Bool} (law : op.Law v w s r f)
    (law' : op.Law v w s r' f') : r = r' ∧ f = f' := by
  -- The operation alone decides whether there is a flag; where there is one, both are read off one number.
  have plain : f.isNone = f'.isNone := law.isPlain.symm.trans law'.isPlain
  cases f with
  | none =>
    obtain rfl : f' = none := Option.isNone_iff_eq_none.1 plain.symm
    cases op with
    | copy | or | and | xor => exact ⟨Eq.trans law (Eq.symm law'), rfl⟩
    | _ => exact law.elim
  | some b =>
    obtain ⟨b', rfl⟩ : ∃ b', f' = some b' := Option.isSome_iff_exists.1 (by simpa using plain.symm)
    rw [Option.some_inj]
    cases op with
    | add | subtract | subtractFrom | shiftLeft =>
      simp only [Law] at law law'
      exact eq_of_worth (by omega)
    | shiftRight =>
      simp only [Law] at law law'
      have small := Bool.toNat_le b
      have small' := Bool.toNat_le b'
      exact eq_of_worth (by omega)
    | _ => exact law.elim

end AluOp

namespace Registers

/-- The second registers are the first ones once Vx took a result and then VF a flag, if there is one. -/
structure Takes (V : Registers) (x : Register) (r : Byte) (f : Option Bool) (W : Registers) : Prop where
  result : x ≠ flag ∨ f = none → W.get x = r
  flagged : ∀ b, f = some b → W.get flag = if b then 1 else 0
  others : ∀ v, v ≠ x → v ≠ flag ∨ f = none → W.get v = V.get v

theorem get_setFlag (V : Registers) (b : Bool) : (V.setFlag b).get flag = if b then 1 else 0 :=
  V.get_set_self _ _

theorem takes_set (V : Registers) (x : Register) (r : Byte) : V.Takes x r none (V.set x r) where
  result _ := V.get_set_self x r
  flagged _ impossible := nomatch impossible
  others _ other _ := V.get_set_of_ne r other.symm

theorem takes_setFlag (V : Registers) (x : Register) (r : Byte) (b : Bool) :
    V.Takes x r (some b) ((V.set x r).setFlag b) where
  result := by
    rintro (other | impossible)
    · rw [get_setFlag_of_ne _ b other, get_set_self]
    · contradiction
  flagged := by
    rintro _ ⟨⟩
    exact get_setFlag _ b
  others := by
    rintro v other (unflagged | impossible)
    · rw [get_setFlag_of_ne _ b unflagged, get_set_of_ne V r other.symm]
    · contradiction

theorem takes_alu (V : Registers) (op : AluOp) (x y : Register) :
    V.Takes x (op.eval (V.get x) (V.get y)).1 (op.eval (V.get x) (V.get y)).2 (V.alu op x y) := by
  unfold alu
  split
  next r unflagged => rw [unflagged]; exact V.takes_set x r
  next r f flagged => rw [flagged]; exact V.takes_setFlag x r f

end Registers

namespace Machine

/-- The value that a shift takes. -/
def shifted (m : Machine τ) (x y : Register) : Byte := m.registers.get (if m.dialect.shiftUsesVy then y else x)

theorem get_source (m : Machine τ) (op : AluOp) (x y : Register) :
    m.registers.get (m.source op x y) = if op.isShift then m.shifted x y else m.registers.get y := by
  unfold source shifted
  cases op.isShift <;> cases m.dialect.shiftUsesVy <;> rfl

theorem registers_addIndex (m : Machine τ) (x : Register) :
    (m.addIndex x).registers = if m.dialect.indexOverflow
      then m.registers.setFlag (decide (0xFFF < m.core.index.addr + (m.registers.get x).toNat)) else m.registers := rfl

/-- Arithmetic with a flag, wherever its operands and its result are. An operation between registers keeps to its law
    with the values that they had before; the law leaves no choice of result and flag, the result goes to Vx, then the
    flag to VF, and the numbers fit into registers without being cut. An operation that has no flag, and the addition of
    a constant, leave VF alone unless it is their destination. An addition to I takes Vx as it was before VF becomes the
    overflow, where the dialect has one, and a drawing takes its place from Vx and Vy as they were before VF becomes
    the collision. -/
theorem flags_of_execute (m : Machine τ) (x y : Register) :
    (∀ op : AluOp, ∃ after r f,
      m.execute (.alu op x y) = .done after () ∧ m.combine op x (m.source op x y) = .ok after ∧
      op.Law (m.registers.get x) (m.registers.get y) (m.shifted x y) r f ∧
      (∀ r' f', op.Law (m.registers.get x) (m.registers.get y) (m.shifted x y) r' f' → r = r' ∧ f = f') ∧
      m.registers.Takes x r f after.registers) ∧
    (∀ kk, ∃ after, m.execute (.addByte x kk) = .done after () ∧
      m.registers.Takes x (m.registers.get x + kk) none after.registers) ∧
    (∃ after, m.execute (.addIndex x) = .done after () ∧
      let total := m.core.index.addr + (m.registers.get x).toNat
      after.core.index.addr = total % 65536 ∧
      (∀ v, v ≠ Registers.flag ∨ m.dialect.indexOverflow = false → after.registers.get v = m.registers.get v) ∧
      (m.dialect.indexOverflow = true → after.registers.get Registers.flag = if 0xFFF < total then 1 else 0)) ∧
    (∀ n, ∃ after, m.execute (.draw x y n) = .done after () ∧
      let drawn := m.screen.paint m.dialect.wrapSprites (m.registers.get x).toNat (m.registers.get y).toNat
        (m.core.memory.read m.core.index.addr n)
      after.screen = drawn.1 ∧
      (∀ v ≠ Registers.flag, after.registers.get v = m.registers.get v) ∧
      after.registers.get Registers.flag = if drawn.2 then 1 else 0) := by
  refine ⟨fun op => ?_, fun kk => ⟨_, rfl, m.registers.takes_set x _⟩, ⟨_, rfl, rfl, ?_, ?_⟩, fun n => ?_⟩
  · have law := op.law_eval (m.registers.get x) (m.registers.get y) (m.shifted x y)
    rw [← get_source] at law
    exact ⟨_, _, _, rfl, m.combine_registers op x _, law, fun r' f' other => law.unique other,
      m.registers.takes_alu op x _⟩
  · rintro v (other | unflagged)
    · rw [registers_addIndex]
      split
      · exact m.registers.get_setFlag_of_ne _ other
      · rfl
    · rw [registers_addIndex, unflagged, if_neg Bool.false_ne_true]
  · intro overflows
    rw [registers_addIndex, if_pos overflows, Registers.get_setFlag]
    simp only [decide_eq_true_eq]
  · exact ⟨_, rfl, rfl, fun v other => m.registers.get_setFlag_of_ne _ other, Registers.get_setFlag _ _⟩

end Machine
end Chip8
