import Chip8.Proofs.Sprite

/-!
Where dialects part. An instruction divides two dialects if they differ in the point that it asks for
(`Instruction.Divides`); a sprite asks whether the screen wraps only if it passes an edge (`Screen.Crosses`,
`Screen.paint_of_not_crosses`). Every other instruction does the same in both (`Machine.execute_inDialect`).
-/
namespace Chip8
variable {τ : Type}

namespace Screen

/-- A sprite of so many rows passes the right or the lower edge of the screen. -/
def Crosses (x y : Int) (rows : Nat) : Prop := 64 < x % 64 + 8 ∨ 32 < y % 32 + rows

theorem mask_of_le {x : Nat} (inside : x + 8 ≤ 64) (wrap wrap' : Bool) (b : Byte) : mask wrap x b = mask wrap' x b := by
  refine BitVec.eq_of_getMsbD_eq fun i column => ?_
  have left : x < 64 := by omega
  have shown := getMsbD_mask wrap left b ⟨i, column⟩
  have shown' := getMsbD_mask wrap' left b ⟨i, column⟩
  simp only at shown shown'
  rw [shown, shown']
  by_cases before : x ≤ i
  · simp [before]
  · have far : ¬ (i + 64 - x) % 64 < 8 := by omega
    simp [far]

theorem rowAt?_of_lt {y r : Nat} (inside : y + r < 32) (wrap wrap' : Bool) : rowAt? wrap y r = rowAt? wrap' y r := by
  cases wrap <;> cases wrap' <;> simp [rowAt?, inside, Nat.mod_eq_of_lt inside]

/-- A sprite that passes no edge is drawn alike whether the screen wraps or not. -/
theorem paint_of_not_crosses (s : Screen) {x y : Int} {rows : List Byte} (inside : ¬ Crosses x y rows.length)
    (wrap wrap' : Bool) : s.paint wrap x y rows = s.paint wrap' x y rows := by
  unfold Crosses at inside
  have columns : (x % 64).toNat + 8 ≤ 64 := by omega
  have same : placements wrap (x % 64).toNat (y % 32).toNat rows =
      placements wrap' (x % 64).toNat (y % 32).toNat rows := by
    refine List.filterMap_congr fun p placed => ?_
    obtain ⟨b, r⟩ := p
    have row : r < rows.length := (List.getElem?_eq_some_iff.1 (List.mem_zipIdx_iff_getElem?.1 placed)).1
    simp only [rowAt?_of_lt (show (y % 32).toNat + r < 32 by omega) wrap wrap', mask_of_le columns wrap wrap']
  simp only [paint, same]

end Screen

/-- The instruction asks for a point in which the two dialects differ: whether adding to I sets VF, which key ends a
    wait, what becomes of a sprite past an edge, which of two registers is shifted, or where a transfer leaves I. -/
def Instruction.Divides (d d' : Dialect) (V : Registers) : Instruction → Prop
  | .addIndex _ => d.indexOverflow ≠ d'.indexOverflow
  | .waitKey _ => d.keyRelease ≠ d'.keyRelease
  | .draw x y n => d.wrapSprites ≠ d'.wrapSprites ∧ Screen.Crosses (V.get x).toNat (V.get y).toNat n
  | .alu op x y => d.shiftUsesVy ≠ d'.shiftUsesVy ∧ op.isShift = true ∧ x ≠ y
  | .storeRegisters _ | .loadRegisters _ => d.loadStoreIncrementsIndex ≠ d'.loadStoreIncrementsIndex
  | _ => False

theorem Instruction.not_divides_self (d : Dialect) (V : Registers) (i : Instruction) : ¬ i.Divides d d V := by
  cases i <;> simp [Divides]

namespace Machine
variable {m : Machine τ} {d : Dialect}

/-- The machine with another dialect. -/
def inDialect (m : Machine τ) (d : Dialect) : Machine τ := { m with dialect := d }

theorem inDialect_self (same : m.dialect = d) : m.inDialect d = m := by
  rw [inDialect, ← same]

/-- Whatever looks at the dialect is told the same as long as nothing divides the two. -/
theorem waitKey_inDialect (x : Register) (shared : m.dialect.keyRelease = d.keyRelease) :
    (m.inDialect d).waitKey x = (m.waitKey x).inDialect d := by
  have same : (m.inDialect d).look.awaited? = m.look.awaited? := by
    simp only [awaited?, look, inDialect, shared]
    rfl
  unfold waitKey
  simp only [same]
  cases m.look.awaited? <;> rfl

theorem addIndex_inDialect (x : Register) (shared : m.dialect.indexOverflow = d.indexOverflow) :
    (m.inDialect d).addIndex x = (m.addIndex x).inDialect d := by
  simp only [addIndex, inDialect, shared]
  rfl

theorem source_inDialect {op : AluOp} {x y : Register}
    (shared : m.dialect.shiftUsesVy ≠ d.shiftUsesVy → op.isShift = true → x = y) :
    (m.inDialect d).source op x y = m.source op x y := by
  by_cases same : m.dialect.shiftUsesVy = d.shiftUsesVy
  · simp only [source, inDialect, same]
    rfl
  · cases shift : op.isShift with
    | false => simp only [source, shift, Bool.false_and]
    | true =>
      rw [shared same shift]
      simp only [source, ite_self]

theorem paint_inDialect {x y : Int} {rows : List Byte}
    (shared : m.dialect.wrapSprites ≠ d.wrapSprites → ¬ Screen.Crosses x y rows.length) :
    (m.inDialect d).paint x y rows = ((m.paint x y rows).1.inDialect d, (m.paint x y rows).2) := by
  have same : m.screen.paint d.wrapSprites x y rows = m.screen.paint m.dialect.wrapSprites x y rows := by
    by_cases wraps : m.dialect.wrapSprites = d.wrapSprites
    · rw [wraps]
    · exact m.screen.paint_of_not_crosses (shared wraps) _ _
  simp only [paint, inDialect]
  rw [same]

theorem draw_inDialect {x y : Register} {n : Nat}
    (shared : m.dialect.wrapSprites ≠ d.wrapSprites →
      ¬ Screen.Crosses (m.registers.get x).toNat (m.registers.get y).toNat n) :
    (m.inDialect d).draw x y n = (m.draw x y n).inDialect d := by
  rw [← m.core.memory.length_read m.core.index.addr n] at shared
  have painted := paint_inDialect shared
  simp only [inDialect] at painted
  simp only [draw, inDialect, painted]

theorem indexAfter_inDialect (x : Register) (core : Core)
    (shared : m.dialect.loadStoreIncrementsIndex = d.loadStoreIncrementsIndex) :
    (m.inDialect d).indexAfter x core = m.indexAfter x core := by
  simp only [indexAfter, inDialect, shared]
  rfl

theorem tested_inDialect (m : Machine τ) (c : Condition) : (m.inDialect d).tested c = (m.tested c).inDialect d := by
  cases c <;> rfl

theorem skip_inDialect (m : Machine τ) (c : Condition) :
    (m.inDialect d).skip c = (m.skip c).within (·.inDialect d) := by
  rw [skip_eq, skip_eq, tested_inDialect]
  by_cases met : c.holds (m.tested c).registers (m.tested c).keypad = true
  · rw [if_pos met]
    exact if_pos met
  · rw [if_neg met]
    exact if_neg met

/-- An instruction that does not divide the dialects does the same in both. -/
theorem execute_inDialect {i : Instruction} (shared : ¬ i.Divides m.dialect d m.registers) :
    (m.inDialect d).execute i = (m.execute i).within (·.inDialect d) := by
  cases i with
  | skip c => exact m.skip_inDialect c
  | alu op x y =>
    have same : (m.inDialect d).source op x y = m.source op x y :=
      source_inDialect fun other shift => Decidable.not_not.1 fun apart => shared ⟨other, shift, apart⟩
    simp only [execute, same]
    rfl
  | draw x y n =>
    have same : (m.inDialect d).draw x y n = (m.draw x y n).inDialect d :=
      draw_inDialect fun other cross => shared ⟨other, cross⟩
    simp only [execute, same]
    rfl
  | waitKey x => exact congrArg (Attempt.done · ()) (waitKey_inDialect x (Decidable.not_not.1 shared))
  | addIndex x => exact congrArg (Attempt.done · ()) (addIndex_inDialect x (Decidable.not_not.1 shared))
  | storeRegisters x | loadRegisters x =>
    have same := fun core => indexAfter_inDialect (m := m) (d := d) x core (Decidable.not_not.1 shared)
    simp only [execute, storeRegisters, loadRegisters, same]
    rfl
  | _ => rfl

/-- No instruction changes the dialect. -/
theorem dialect_execute (m : Machine τ) (i : Instruction) : (m.execute i).state.dialect = m.dialect := by
  cases i with
  | skip c =>
    rw [execute, skip_eq]
    split
    · exact m.dialect_tested c
    · exact m.dialect_tested c
  | waitKey x =>
    cases found : m.look.awaited? with
    | none => simp only [execute, waitKey_of_none x found, Attempt.state_done, dialect_look]
    | some key => simp only [execute, waitKey_of_some x found, Attempt.state_done, dialect_look]
  | _ => rfl

end Machine

end Chip8
