import Chip8.Proofs.Transfer

/-!
The decimal digits of a register, written to memory, loaded into registers and shown. Three digits below ten are worth
a byte in one way only (`Digits.Spell.unique`); these are written to the three cells from I on, around the end of memory
if need be, and nothing else changes. So whatever register they came from, they are found in V0, V1 and V2 by the load
of three registers that follows, and each has a shape in the font (`Machine.digits_of_execute`).
-/
namespace Chip8
variable {τ : Type}

/-- Three bytes are the decimal digits of a number: hundreds, tens and ones. -/
structure Digits.Spell (hundreds tens ones number : Byte) : Prop where
  hundreds_lt : hundreds.toNat < 10
  tens_lt : tens.toNat < 10
  ones_lt : ones.toNat < 10
  worth : 100 * hundreds.toNat + 10 * tens.toNat + ones.toNat = number.toNat

theorem Digits.Spell.unique {h t o h' t' o' b : Byte} (spell : Spell h t o b) (spell' : Spell h' t' o' b) :
    h = h' ∧ t = t' ∧ o = o' := by
  obtain ⟨_, _, _, worth⟩ := spell
  obtain ⟨_, _, _, worth'⟩ := spell'
  refine ⟨BitVec.eq_of_toNat_eq ?_, BitVec.eq_of_toNat_eq ?_, BitVec.eq_of_toNat_eq ?_⟩ <;> omega

namespace Memory

theorem get_write_add (m : Memory) (a : Int) {bs : List Byte} (short : bs.length ≤ 4096) {k : Nat}
    (inside : k < bs.length) : (m.write a bs).get (a + k) = bs[k] := by
  have place : ((a + k - a) % 4096).toNat = k := by omega
  rw [get_write m a _ short, place, List.getElem?_eq_getElem inside, Option.getD_some]

theorem get_write_of_outside (m : Memory) {a b : Int} {bs : List Byte}
    (outside : ∀ k < bs.length, b % 4096 ≠ (a + (k : Nat)) % 4096) : (m.write a bs).get b = m.get b :=
  m.cells_write a bs fun k inside same => outside k inside ((cell_eq_iff _ _).1 same)

end Memory

namespace Core

/-- The digits that are written spell the byte. -/
theorem exists_decimalDigits (b : Byte) : ∃ h t o, decimalDigits b = [h, t, o] ∧ Digits.Spell h t o b := by
  have narrow := b.isLt
  refine ⟨_, _, _, rfl, ?_⟩
  constructor <;> simp only [BitVec.toNat_ofNat] <;> omega

theorem storeDecimal_cells (c : Core) (b : Byte) : ∃ h t o memory,
    Digits.Spell h t o b ∧ c.storeDecimal b = { c with memory } ∧
    memory.get c.index.addr = h ∧ memory.get (c.index.addr + 1) = t ∧ memory.get (c.index.addr + 2) = o ∧
    ∀ a, (∀ k < 3, a % 4096 ≠ (c.index.addr + (k : Nat)) % 4096) → memory.get a = c.memory.get a := by
  obtain ⟨h, t, o, digits, spell⟩ := exists_decimalDigits b
  have row {k : Nat} (inside : k < [h, t, o].length) :=
    c.memory.get_write_add c.index.addr (show [h, t, o].length ≤ 4096 by simp) inside
  have first := row (k := 0) (by simp)
  rw [Int.natCast_zero, Int.add_zero] at first
  refine ⟨h, t, o, _, spell, ?_, first, row (k := 1) (by simp), row (k := 2) (by simp), ?_⟩
  · rw [storeDecimal, digits]
  · intro a outside
    exact c.memory.get_write_of_outside outside

end Core

namespace Machine

/-- A register below sixteen tells the shape that I is set to. -/
theorem index_pointGlyph {m : Machine τ} {y : Register} (small : (m.registers.get y).toNat < 16) :
    (m.execute (.pointGlyph y)).state.core.index.addr = 0x50 + 5 * (m.registers.get y).toNat := by
  have digit : (m.registers.key y).val = (m.registers.get y).toNat := Nat.mod_eq_of_lt small
  show ((Core.glyphAddress (m.registers.key y).val : Nat) : Int) % 65536 = _
  rw [digit]
  simp only [Core.glyphAddress, Memory.fontStart, Memory.glyphSize]
  omega

/-- The decimal digits of Vx are written to the cells from I on, wherever I stands, in every dialect; nothing else
    changes. Three registers loaded next, I being where it was, hold these digits, also where one of them is Vx, and no
    other register changes. If I is then set to the shape of one of the three, it stands at the shape of that digit,
    whose five bytes are in the font. -/
theorem digits_of_execute (m : Machine τ) (x : Register) :
    let stored := m.execute (.storeDecimal x)
    let loaded := stored.state.execute (.loadRegisters 2)
    let V := loaded.state.registers
    ∃ hundreds tens ones memory,
      Digits.Spell hundreds tens ones (m.registers.get x) ∧
      stored = .done { m with core := { m.core with memory } } () ∧
      memory.get m.core.index.addr = hundreds ∧
      memory.get (m.core.index.addr + 1) = tens ∧
      memory.get (m.core.index.addr + 2) = ones ∧
      (∀ a, (∀ k < 3, a % 4096 ≠ (m.core.index.addr + (k : Nat)) % 4096) → memory.get a = m.core.memory.get a) ∧
      loaded.result = .ok () ∧
      V.get 0 = hundreds ∧ V.get 1 = tens ∧ V.get 2 = ones ∧ (∀ v > 2, V.get v = m.registers.get v) ∧
      ∀ y ≤ 2,
        let shown := loaded.state.execute (.pointGlyph y)
        shown.result = .ok () ∧ shown.state.core.index.addr = 0x50 + 5 * (V.get y).toNat ∧
        ∀ k < 5, 0x50 ≤ shown.state.core.index.addr + (k : Nat) ∧ shown.state.core.index.addr + (k : Nat) ≤ 0x9F := by
  intro stored loaded V
  obtain ⟨h, t, o, memory, spell, written, first, second, third, others⟩ :=
    m.core.storeDecimal_cells (m.registers.get x)
  have stores : stored = .done { m with core := { m.core with memory } } () := by
    simp only [stored, execute, written]
  have loads (v : Register) : V.get v =
      if v ≤ 2 then memory.get (m.core.index.addr + v) else m.registers.get v := by
    simp only [V, loaded, stores]
    exact get_loadRegisters _ 2 v
  have zero : V.get 0 = h := by
    rw [loads, if_pos (by decide)]
    exact (congrArg memory.get (Int.add_zero _)).trans first
  have one : V.get 1 = t := by
    rw [loads, if_pos (by decide)]
    exact second
  have two : V.get 2 = o := by
    rw [loads, if_pos (by decide)]
    exact third
  refine ⟨h, t, o, memory, spell, stores, first, second, third, others, rfl, zero, one, two, ?_, ?_⟩
  · intro v beyond
    rw [loads, if_neg (Fin.not_le.2 beyond)]
  · intro y among shown
    have three : ∀ y : Register, y ≤ 2 → y = 0 ∨ y = 1 ∨ y = 2 := by decide
    have digit : (V.get y).toNat < 10 := by
      rcases three y among with rfl | rfl | rfl
      · rw [zero]; exact spell.hundreds_lt
      · rw [one]; exact spell.tens_lt
      · rw [two]; exact spell.ones_lt
    have place : shown.state.core.index.addr = 0x50 + 5 * (V.get y).toNat :=
      index_pointGlyph (Nat.lt_of_lt_of_le digit (by decide))
    refine ⟨rfl, place, fun k inside => ?_⟩
    rw [place]
    omega

/-- The digits of 254 in V1, written around the end of memory. -/
theorem digits_of_execute_around :
    let machine : Machine Rat := { initial .plain (.seeded 0) (.still 0) with
      core := { Core.initial with index := ⟨0xFFE⟩ }
      registers := Registers.zero.set 1 254 }
    let loaded := (machine.execute (.storeDecimal 1)).state.execute (.loadRegisters 2)
    loaded.state.registers.get 0 = 2 ∧ loaded.state.registers.get 1 = 5 ∧ loaded.state.registers.get 2 = 4 ∧
      (loaded.state.execute (.pointGlyph 2)).state.core.index.addr = 0x64 := by
  intro machine loaded
  obtain ⟨h, t, o, _, spell, _, _, _, _, _, _, zero, one, two, _, shows⟩ := machine.digits_of_execute 1
  have digits : Digits.Spell 2 5 4 (machine.registers.get 1) := by constructor <;> decide
  obtain ⟨rfl, rfl, rfl⟩ := spell.unique digits
  obtain ⟨_, place, _⟩ := shows 2 (by decide)
  rw [two] at place
  exact ⟨zero, one, two, place⟩

end Machine

end Chip8
