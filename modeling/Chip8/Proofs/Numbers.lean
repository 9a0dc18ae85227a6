import Chip8.Machine.Execute
import Chip8.Proofs.RoundTrip

/-!
Instructions with plain numbers for operands. Here the fields of a word are found by their position, and
registers, keys and digits by number, each checked where it is used; a value that goes to a register uncut is
checked to be a byte (`Machine.executeNumbers`). None is ever out of range: on every word this is what
`Machine.execute` does with the instruction that the word reads as (`Machine.executeNumbers_eq`).
-/
namespace Chip8
variable {τ : Type}

/-- What may be wrong with a number that an instruction uses: there is no such family, no such field, no such
    register or key, no such digit, or no byte of this value. -/
inductive NumberError where
  | family (n : Nat)
  | field (e : FieldError)
  | slot (e : SlotError)
  | glyph (e : GlyphError)
  | byte (v : Int)
deriving DecidableEq

/-- A field of the word, if it lies inside. -/
def Word.number (w : Word) (start count : Int) : Except NumberError Nat := (w.field? start count).mapError .field

/-- The result and the flag of an operation in plain numbers. Sums, differences and what is shifted left are cut
    to a byte; everything else is left as it comes out. -/
def AluOp.onNumbers : AluOp → Nat → Nat → Int × Option Nat
  | copy, _, w => (w, none)
  | or, v, w => ((v ||| w : Nat), none)
  | and, v, w => ((v &&& w : Nat), none)
  | xor, v, w => ((v ^^^ w : Nat), none)
  | add, v, w => ((v + w) % 256, some (if 255 < v + w then 1 else 0))
  | subtract, v, w => (((v : Int) - w) % 256, some (if w ≤ v then 1 else 0))
  | shiftRight, _, w => ((w / 2 : Nat), some (w % 2))
  | subtractFrom, v, w => (((w : Int) - v) % 256, some (if v ≤ w then 1 else 0))
  | shiftLeft, _, w => ((w * 2 % 256 : Nat), some (w / 128 % 2))

namespace Machine

/-- The value of a numbered register. -/
def value (m : Machine τ) (x : Int) : Except NumberError Nat := ((m.registers.getAt x).map BitVec.toNat).mapError .slot
/-- A numbered register takes the low byte of a value. -/
def store (m : Machine τ) (x v : Int) : Except NumberError (Machine τ) :=
  ((m.registers.setAt x v).map fun registers => { m with registers }).mapError .slot
def increase (m : Machine τ) (x v : Int) : Except NumberError (Machine τ) :=
  ((m.registers.addByteAt x v).map fun registers => { m with registers }).mapError .slot
/-- A numbered register takes a value as it is. -/
def storeUncut (m : Machine τ) (x v : Int) : Except NumberError (Machine τ) :=
  if 0 ≤ v ∧ v ≤ 255 then m.store x v else .error (.byte v)
def combine (m : Machine τ) (op : AluOp) (x y : Int) : Except NumberError (Machine τ) := do
  let (result, flag) := op.onNumbers (← m.value x) (← m.value y)
  let m ← m.storeUncut x result
  match flag with
  | none => return m
  | some flag => m.storeUncut 0xF flag

/-- A look at the keypad through a layout that gives each name its number. -/
def lookNumbers (m : Machine τ) : Except NumberError (Machine τ) :=
  let layout name := (List.lookup name Layout.standard).map fun k => (k.val : Int)
  match m.keypad.pollNumbers layout m.keyboard.held with
  | (keypad, none) => .ok { m with keypad, keyboard := m.keyboard.look }
  | (_, some e) => .error (.slot e)
/-- A numbered key is down. Only the low four bits of the number count. -/
def keyDown (m : Machine τ) (key : Nat) : Except NumberError Bool :=
  ((Slot.find .reading (key % 16 : Nat)).map m.keypad.isPressed).mapError .slot

def skipIf (m : Machine τ) (taken : Bool) : Attempt (Machine τ) Unit :=
  if taken then m.core.advance.within fun core => { m with core } else .done m ()

/-- A word outside the table is noted and passed over. -/
def passOver (m : Machine τ) (w : Word) : Machine τ :=
  { m with reported := if m.isReported w then m.reported else w :: m.reported }

/-- Memory once it took the first `n` registers one by one. -/
def memoryAfter (m : Machine τ) (n : Nat) : Except NumberError Memory :=
  (List.range n).foldlM (fun memory (i : Nat) => do
    return memory.set (m.core.index.addr + i) (BitVec.ofNat 8 (← m.value i))) m.core.memory
/-- The registers once the first `n` took what memory holds one by one. -/
def registersAfter (m : Machine τ) (n : Nat) : Except NumberError Registers :=
  (List.range n).foldlM (fun registers (i : Nat) =>
    (registers.setAt i (m.core.memory.get (m.core.index.addr + i)).toNat).mapError .slot) m.registers

/-- The tests of keys, selected by the low byte. -/
def keyTestNumbers (m : Machine τ) (w : Word) (x low : Nat) : Except NumberError (Attempt (Machine τ) Unit) := do
  match low with
  | 0x9E =>
    let m ← m.lookNumbers
    return m.skipIf (← m.keyDown (← m.value x))
  | 0xA1 =>
    let m ← m.lookNumbers
    return m.skipIf !(← m.keyDown (← m.value x))
  | _ => return .done (m.passOver w) ()

/-- The words of the last family, selected by the low byte. -/
def transferNumbers (m : Machine τ) (w : Word) (x low : Nat) : Except NumberError (Machine τ) := do
  match low with
  | 0x07 => m.store x m.delay.count.toNat
  | 0x0A =>
    let m ← m.lookNumbers
    match m.awaited? with
    | none => return { m with waiting := true, core := m.core.rewind }
    | some key => ({ m with waiting := false } : Machine τ).store x key.val
  | 0x15 => return m.setDelay (BitVec.ofNat 8 (← m.value x))
  | 0x18 => return m.setSound (BitVec.ofNat 8 (← m.value x))
  | 0x1E =>
    let total := m.core.index.addr + (← m.value x)
    let m ← if m.dialect.indexOverflow then m.store 0xF (if 0xFFF < total then 1 else 0) else pure m
    return { m with core := m.core.setIndex total }
  | 0x29 =>
    let digit := (← m.value x) % 16
    return { m with core := m.core.setIndex (← (Core.glyph? digit).mapError .glyph) }
  | 0x33 => return { m with core := m.core.storeDecimal (BitVec.ofNat 8 (← m.value x)) }
  | 0x55 =>
    let core := { m.core with memory := ← m.memoryAfter (x + 1) }
    return { m with
      core := if m.dialect.loadStoreIncrementsIndex then core.setIndex (m.core.index.addr + x + 1) else core }
  | 0x65 =>
    return { m with
      registers := ← m.registersAfter (x + 1)
      core := if m.dialect.loadStoreIncrementsIndex then m.core.setIndex (m.core.index.addr + x + 1) else m.core }
  | _ => return m.passOver w

/-- The words of each family. -/
def executeFamily (m : Machine τ) (w : Word) : Nat → Except NumberError (Attempt (Machine τ) Unit)
  | 0x0 =>
    .ok <| if w = 0x00E0 then .done { m with screen := m.screen.clear } ()
      else if w = 0x00EE then m.core.ret.within fun core => { m with core } else .done (m.passOver w) ()
  | 0x1 => do return .done { m with core := m.core.jump (← w.number 2 3) } ()
  | 0x2 => do return (m.core.call (← w.number 2 3)).within fun core => { m with core }
  | 0x3 => do return m.skipIf ((← m.value (← w.number 2 1)) == (← w.number 3 2))
  | 0x4 => do return m.skipIf ((← m.value (← w.number 2 1)) != (← w.number 3 2))
  | 0x5 => do
    if (← w.number 4 1) = 0 then return m.skipIf ((← m.value (← w.number 2 1)) == (← m.value (← w.number 3 1)))
    else return .done (m.passOver w) ()
  | 0x6 => do return .done (← m.store (← w.number 2 1) (← w.number 3 2)) ()
  | 0x7 => do return .done (← m.increase (← w.number 2 1) (← w.number 3 2)) ()
  | 0x8 => do
    match Instruction.aluOp? (← w.number 4 1) with
    | none => return .done (m.passOver w) ()
    | some op =>
      let x ← w.number 2 1
      let y ← w.number 3 1
      return .done (← m.combine op x (if op.isShift && !m.dialect.shiftUsesVy then x else y)) ()
  | 0x9 => do
    if (← w.number 4 1) = 0 then return m.skipIf ((← m.value (← w.number 2 1)) != (← m.value (← w.number 3 1)))
    else return .done (m.passOver w) ()
  | 0xA => do return .done { m with core := m.core.setIndex (← w.number 2 3) } ()
  | 0xB => do return .done { m with core := m.core.jump ((← w.number 2 3) + (← m.value 0)) } ()
  | 0xC => do
    let byte := m.random.next.1.toNat &&& (← w.number 3 2)
    return .done (← ({ m with random := m.random.next.2 } : Machine τ).store (← w.number 2 1) byte) ()
  | 0xD => do
    let x ← m.value (← w.number 2 1)
    let y ← m.value (← w.number 3 1)
    let (drawn, met) := m.paint x y (m.core.memory.read m.core.index.addr (← w.number 4 1))
    return .done (← drawn.store 0xF (if met then 1 else 0)) ()
  | 0xE => do m.keyTestNumbers w (← w.number 2 1) (← w.number 3 2)
  | 0xF => do return .done (← m.transferNumbers w (← w.number 2 1) (← w.number 3 2)) ()
  | n => .error (.family n)

/-- Executes a word with its operands as numbers. -/
def executeNumbers (m : Machine τ) (w : Word) : Except NumberError (Attempt (Machine τ) Unit) := do
  m.executeFamily w (← w.number 1 1)

end Machine

/-! ### Numbers in range -/

namespace Word

/-- A field inside the word can be read. -/
theorem number_eq (w : Word) {start count : Int} (inside : 1 ≤ start ∧ start ≤ 4 ∧ 1 ≤ count ∧ count ≤ 5 - start) :
    w.number start count = .ok (w.field start.toNat count.toNat) := by
  rw [number, field?, if_pos inside]
  rfl

theorem number_two_one (w : Word) : w.number 2 1 = .ok w.x.val := by
  rw [w.val_x, w.number_eq (by decide)]; simp [field]
theorem number_three_one (w : Word) : w.number 3 1 = .ok w.y.val := by
  rw [w.val_y, w.number_eq (by decide)]; simp [field]
theorem number_four_one (w : Word) : w.number 4 1 = .ok w.n.val := by
  rw [w.val_n, w.number_eq (by decide)]; simp [field]
theorem number_three_two (w : Word) : w.number 3 2 = .ok w.kk.toNat := by
  rw [w.toNat_kk, w.number_eq (by decide)]; simp [field]
theorem number_two_three (w : Word) : w.number 2 3 = .ok w.nnn.toNat := by
  rw [w.toNat_nnn, w.number_eq (by decide)]; simp [field]

end Word

theorem Slot.find_natCast (during : SlotError) (k : Fin 16) : Slot.find during (k.val : Int) = .ok k := by
  simp only [Slot.find, Slot.ofInt?_natCast]

theorem Slot.mapM_find (keys : List Key) :
    (keys.map fun k => (k.val : Int)).mapM (Slot.find .writing) = .ok keys := by
  induction keys with
  | nil => rfl
  | cons k keys ih => rw [List.map_cons, List.mapM_cons, Slot.find_natCast, ih]; rfl

/-- Through the standard layout a look by number is a look by key. -/
theorem Keypad.pollNumbers_standard (k : Keypad) (held : List String) :
    k.pollNumbers (fun name => (List.lookup name Layout.standard).map fun key => (key.val : Int)) held =
      (k.poll (Layout.keys held), none) := by
  have numbers : held.filterMap (fun name => (List.lookup name Layout.standard).map fun key => (key.val : Int)) =
      (Layout.keys held).map fun key => (key.val : Int) := by rw [Layout.keys, List.map_filterMap]
  rw [pollNumbers, numbers, Slot.mapM_find]

theorem ite_getLsbD (w : Byte) (i : Nat) : (if w.getLsbD i then 1 else 0) = w.toNat >>> i % 2 := by
  simp only [BitVec.getLsbD, Nat.testBit_eq_decide_div_mod_eq, decide_eq_true_eq, Nat.shiftRight_eq_div_pow]
  split <;> omega

/-- Values of bytes give values of bytes. -/
theorem AluOp.onNumbers_toNat (op : AluOp) (v w : Byte) :
    op.onNumbers v.toNat w.toNat =
      (((op.eval v w).1.toNat : Int), (op.eval v w).2.map fun f => if f then 1 else 0) := by
  have narrow := w.isLt
  have small := v.isLt
  cases op with
  | copy => rfl
  | or => simp [onNumbers, eval]
  | and => simp [onNumbers, eval]
  | xor => simp [onNumbers, eval]
  | add => simp [onNumbers, eval, BitVec.toNat_add]
  | subtract =>
    simp [onNumbers, eval, BitVec.toNat_sub]
    omega
  | shiftRight => simp [onNumbers, eval, ite_getLsbD, Nat.shiftRight_eq_div_pow, -BitVec.getLsbD_eq_getElem]
  | subtractFrom =>
    simp [onNumbers, eval, BitVec.toNat_sub]
    omega
  | shiftLeft =>
    simp [onNumbers, eval, ite_getLsbD, Nat.shiftLeft_eq, Nat.shiftRight_eq_div_pow, -BitVec.getLsbD_eq_getElem]

theorem Registers.setAt_register (V : Registers) (x : Register) (v : Int) :
    V.setAt (x.val : Int) v = .ok (V.set x (BitVec.ofInt 8 v)) := by simp only [setAt, Slot.find_natCast]

namespace Machine

@[simp] theorem value_register (m : Machine τ) (x : Register) :
    m.value (x.val : Int) = .ok (m.registers.get x).toNat := by
  simp only [value, Registers.getAt, Slot.find_natCast]
  rfl
@[simp] theorem store_register (m : Machine τ) (x : Register) (v : Int) :
    m.store (x.val : Int) v = .ok { m with registers := m.registers.set x (BitVec.ofInt 8 v) } := by
  simp only [store, Registers.setAt_register]
  rfl
@[simp] theorem increase_register (m : Machine τ) (x : Register) (v : Int) :
    m.increase (x.val : Int) v = .ok { m with registers := m.registers.addByte x (BitVec.ofInt 8 v) } := by
  simp only [increase, Registers.addByteAt, Slot.find_natCast]
  rfl
@[simp] theorem storeUncut_register (m : Machine τ) (x : Register) (b : Byte) :
    m.storeUncut (x.val : Int) b.toNat = .ok { m with registers := m.registers.set x b } := by
  have narrow := b.isLt
  rw [storeUncut, if_pos (by omega), store_register, BitVec.ofInt_natCast, BitVec.ofNat_toNat, BitVec.setWidth_eq]
@[simp] theorem combine_registers (m : Machine τ) (op : AluOp) (x y : Register) :
    m.combine op (x.val : Int) (y.val : Int) = .ok { m with registers := m.registers.alu op x y } := by
  have toFlag (m : Machine τ) (b : Byte) := m.storeUncut_register Registers.flag b
  simp only [combine, value_register, AluOp.onNumbers_toNat, bind, Except.bind, storeUncut_register, Registers.alu]
  cases op.eval (m.registers.get x) (m.registers.get y) with | mk result flag =>
    cases flag with
    | none => rfl
    | some flag => cases flag with
      | false => exact toFlag _ 0
      | true => exact toFlag _ 1
@[simp] theorem keyDown_eq (m : Machine τ) (key : Nat) : m.keyDown key = .ok (m.keypad.isPressed (lowNibble key)) := by
  have found := Slot.find_natCast .reading (lowNibble key)
  simp only [lowNibble] at found
  simp only [keyDown, found]
  rfl
@[simp] theorem lookNumbers_eq (m : Machine τ) : m.lookNumbers = .ok m.look := by
  simp only [lookNumbers, Keypad.pollNumbers_standard]
  rfl

/-- Storing registers one by one stores them all, up to the sixteenth. -/
theorem memoryAfter_eq (m : Machine τ) {n : Nat} (small : n ≤ 16) :
    m.memoryAfter n = .ok (m.core.memory.write m.core.index.addr (m.registers.cells.toList.take n)) := by
  unfold memoryAfter
  induction n with
  | zero => rfl
  | succ n ih =>
    have inside : n < 16 := small
    have next : m.registers.cells.toList.take (n + 1) =
        m.registers.cells.toList.take n ++ [m.registers.get ⟨n, inside⟩] := by
      simp [List.take_add_one, inside, Registers.get]
    have read : m.value (n : Int) = .ok (m.registers.get ⟨n, inside⟩).toNat := m.value_register ⟨n, inside⟩
    rw [List.range_succ, List.foldlM_append, ih (by omega), next, Memory.write_concat]
    simp [read, bind, Except.bind, pure, Except.pure, Nat.min_eq_left (Nat.le_of_lt inside)]

/-- Loading registers one by one loads them all, up to the sixteenth. -/
theorem registersAfter_eq (m : Machine τ) {n : Nat} (small : n ≤ 16) :
    m.registersAfter n = .ok (m.registers.putAll (m.core.memory.read m.core.index.addr n)) := by
  unfold registersAfter
  induction n with
  | zero => simp [Memory.read, Registers.putAll_nil]; rfl
  | succ n ih =>
    have inside : n < 16 := small
    have next := m.core.memory.read_append m.core.index.addr n 1
    have room : (m.core.memory.read m.core.index.addr n).length < 16 := by rw [Memory.length_read]; exact inside
    have one : m.core.memory.read (m.core.index.addr + n) 1 = [m.core.memory.get (m.core.index.addr + n)] := by
      simp [Memory.read]
    have place : (⟨_, room⟩ : Register) = ⟨n, inside⟩ := Fin.ext (Memory.length_read _ _ _)
    have put (V : Registers) (v : Int) :
        (V.setAt (n : Int) v).mapError NumberError.slot = .ok (V.set ⟨n, inside⟩ (BitVec.ofInt 8 v)) := by
      rw [V.setAt_register ⟨n, inside⟩ v]
      rfl
    rw [List.range_succ, List.foldlM_append, ih (by omega), next, one, Registers.putAll_concat _ _ _ room, place]
    simp [put, bind, Except.bind, pure, Except.pure]

theorem toNat_beq (a b : Byte) : (a.toNat == b.toNat) = (a == b) := by
  rw [Bool.eq_iff_iff, beq_iff_eq, beq_iff_eq, BitVec.toNat_inj]
theorem toNat_bne (a b : Byte) : (a.toNat != b.toNat) = (a != b) := congrArg not (toNat_beq a b)

theorem value_first (m : Machine τ) : m.value 0 = .ok (m.registers.get Registers.first).toNat :=
  m.value_register Registers.first
theorem store_flag (m : Machine τ) (v : Int) :
    m.store 0xF v = .ok { m with registers := m.registers.set Registers.flag (BitVec.ofInt 8 v) } :=
  m.store_register Registers.flag v
theorem ofInt_flag (p : Prop) [Decidable p] :
    BitVec.ofInt 8 (if p then 1 else 0) = if decide p then (1 : Byte) else 0 := by
  by_cases holds : p <;> simp [holds]

theorem glyph?_key (V : Registers) (x : Register) :
    Core.glyph? (((V.get x).toNat % 16 : Nat) : Int) = .ok (Core.glyphAddress (V.key x).val) := by
  have digit : 0 ≤ (((V.get x).toNat % 16 : Nat) : Int) ∧ (((V.get x).toNat % 16 : Nat) : Int) ≤ 15 := by omega
  rw [Core.glyph?, if_pos digit]
  rfl

theorem keyTestNumbers_eq (m : Machine τ) (w : Word) (x : Register) (low : Nat) :
    m.keyTestNumbers w x.val low = .ok (m.execute ((Instruction.keyTest? x low).getD (.unknown w))) := by
  unfold keyTestNumbers
  split
  case h_1 | h_2 => simp only [lookNumbers_eq, bind, Except.bind, value_register, keyDown_eq]; rfl
  case h_3 =>
    have unknown : Instruction.keyTest? x low = none := by
      unfold Instruction.keyTest?
      split <;> first | contradiction | rfl
    rw [unknown]
    rfl

theorem transferNumbers_eq (m : Machine τ) (w : Word) (x : Register) (low : Nat) :
    (m.transferNumbers w x.val low).map (fun after => Attempt.done after ()) =
      .ok (m.execute ((Instruction.transfer? x low).getD (.unknown w))) := by
  unfold transferNumbers
  split
  case h_1 => simp [Except.map]; rfl
  case h_2 =>
    simp only [lookNumbers_eq, bind, Except.bind, store_register, execute, waitKey]
    cases m.look.awaited? <;> rfl
  case h_3 | h_4 | h_7 => simp only [value_register, bind, Except.bind, BitVec.ofNat_toNat, BitVec.setWidth_eq]; rfl
  case h_5 =>
    simp only [value_register, bind, Except.bind, execute, addIndex]
    cases m.dialect.indexOverflow with
    | false => rfl
    | true => simp only [↓reduceIte, store_flag, ofInt_flag]; rfl
  case h_6 => simp only [value_register, bind, Except.bind, glyph?_key]; rfl
  case h_8 => simp only [m.memoryAfter_eq x.isLt, bind, Except.bind]; rfl
  case h_9 => simp only [m.registersAfter_eq x.isLt, bind, Except.bind]; rfl
  case h_10 =>
    have unknown : Instruction.transfer? x low = none := by
      unfold Instruction.transfer?
      split <;> first | contradiction | rfl
    rw [unknown]
    rfl

/-- On every word, operands by number do what the decoded operands do, and none is out of range. -/
theorem executeNumbers_eq (m : Machine τ) (w : Word) : m.executeNumbers w = .ok (m.execute (.decode w)) := by
  show m.executeFamily w (w.field 1 1) = _
  unfold Instruction.decode Instruction.known?
  split
  case h_1 family =>
    rw [family, executeFamily]
    split
    next => rfl
    next => split <;> rfl
  case h_2 family | h_3 family | h_11 family => rw [family, executeFamily, Word.number_two_three]; rfl
  case h_4 family | h_5 family =>
    rw [family, executeFamily, Word.number_two_one, Word.number_three_two]
    simp only [bind, Except.bind, value_register, toNat_beq, toNat_bne]
    rfl
  case h_6 family | h_10 family =>
    rw [family, executeFamily, Word.number_two_one, Word.number_three_one, Word.number_four_one, w.field_four_one,
      w.val_n]
    simp only [bind, Except.bind, value_register, toNat_beq, toNat_bne]
    split <;> rfl
  case h_7 family | h_8 family =>
    rw [family, executeFamily, Word.number_two_one, Word.number_three_two]
    simp only [bind, Except.bind, store_register, increase_register, BitVec.ofInt_natCast, BitVec.ofNat_toNat,
      BitVec.setWidth_eq]
    rfl
  case h_9 family =>
    rw [family, executeFamily, Word.number_two_one, Word.number_three_one, Word.number_four_one, w.field_four_one,
      w.val_n]
    simp only [bind, Except.bind]
    cases Instruction.aluOp? (w.toNat % 16) with
    | none => rfl
    | some op =>
      have source : (if op.isShift && !m.dialect.shiftUsesVy then (w.x.val : Int) else w.y.val) =
          (m.source op w.x w.y).val := by unfold Machine.source; split <;> rfl
      simp only [source, combine_registers]
      rfl
  case h_12 family =>
    rw [family, executeFamily, Word.number_two_three, value_first]
    rfl
  case h_13 family =>
    rw [family, executeFamily, Word.number_two_one, Word.number_three_two]
    simp only [bind, Except.bind, store_register, BitVec.ofInt_natCast, ← BitVec.toNat_and, BitVec.ofNat_toNat,
      BitVec.setWidth_eq]
    rfl
  case h_14 family =>
    rw [family, executeFamily, Word.number_two_one, Word.number_three_one, Word.number_four_one]
    have met (p : Bool) : BitVec.ofInt 8 (if p then 1 else 0) = if p then (1 : Byte) else 0 := by cases p <;> rfl
    simp only [bind, Except.bind, value_register, store_flag, met]
    rfl
  case h_15 family =>
    have tested := m.keyTestNumbers_eq w w.x w.kk.toNat
    rw [family, executeFamily, Word.number_two_one, Word.number_three_two, w.field_three_two, ← w.toNat_kk, ← tested]
    rfl
  case h_16 family =>
    have transferred := m.transferNumbers_eq w w.x w.kk.toNat
    rw [family, executeFamily, Word.number_two_one, Word.number_three_two, w.field_three_two, ← w.toNat_kk,
      ← transferred]
    simp only [bind, Except.bind]
    cases m.transferNumbers w w.x w.kk.toNat <;> rfl
  case h_17 =>
    have small := w.isLt
    have family := w.field_one_one
    simp only [imp_false] at *
    omega

end Machine
end Chip8
