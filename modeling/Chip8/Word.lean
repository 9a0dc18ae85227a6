import Chip8.Text.Hex

/-!
Bytes, instruction words and the operands packed into them. A word is read in nibbles, the most
significant first (`Word.field`); an operand is a named field (`Word.x`, `Word.kk`, `Word.nnn`).
Integers of any size enter through `BitVec.ofInt`, which keeps the low bits in two's complement.
-/
namespace Chip8

/-- The contents of one memory cell or register. -/
abbrev Byte := BitVec 8
/-- A 12-bit location, as instructions name it. -/
abbrev Address := BitVec 12
/-- A 16-bit instruction. -/
abbrev Word := BitVec 16
/-- One of V0 to VF. -/
abbrev Register := Fin 16
/-- One of the sixteen keys of the hexadecimal pad. -/
abbrev Key := Fin 16

/-- The low four bits of a number. -/
def lowNibble (n : Nat) : Fin 16 := ⟨n % 16, Nat.mod_lt n (by decide)⟩

/-- A range of nibbles that does not lie inside a word. -/
structure FieldError where
  start : Int
  count : Int
deriving DecidableEq

namespace FieldError

def message (e : FieldError) : String :=
  "bad nibble field (" ++ toString e.start ++ ", " ++ toString e.count ++ ")"

end FieldError

namespace Word

/-- The word of two bytes, the high one first. -/
def ofBytes (high low : Byte) : Word := high ++ low

/-- The value of `count` nibbles from nibble `start` on; nibble 1 is the most significant. -/
def field (w : Word) (start count : Nat) : Nat := w.toNat / Nat.pow 16 (5 - start - count) % Nat.pow 16 count

/-- A field is read only if it lies inside the word. -/
def field? (w : Word) (start count : Int) : Except FieldError Nat :=
  if 1 ≤ start ∧ start ≤ 4 ∧ 1 ≤ count ∧ count ≤ 5 - start then .ok (w.field start.toNat count.toNat)
  else .error ⟨start, count⟩

/-- The high nibble, which selects the kind of instruction. -/
def family (w : Word) : Fin 16 := lowNibble (w.field 1 1)
def x (w : Word) : Register := lowNibble (w.field 2 1)
def y (w : Word) : Register := lowNibble (w.field 3 1)
def n (w : Word) : Fin 16 := lowNibble (w.field 4 1)
/-- The low byte. -/
def kk (w : Word) : Byte := BitVec.ofNat 8 (w.field 3 2)
/-- The low twelve bits. -/
def nnn (w : Word) : Address := BitVec.ofNat 12 (w.field 2 3)

def describe (w : Word) : String := "RawInstruction(0x" ++ Text.Hex.upper 4 w.toNat ++ ")"

theorem toNat_ofBytes (high low : Byte) : (ofBytes high low).toNat = 256 * high.toNat + low.toNat := by
  rw [ofBytes, BitVec.toNat_append, ← Nat.shiftLeft_add_eq_or_of_lt low.isLt, Nat.shiftLeft_eq, Nat.mul_comm]

/-! ### The fields as parts of the number -/

theorem field_one_one (w : Word) : w.field 1 1 = w.toNat / 4096 := by
  have bound := w.isLt
  show w.toNat / 4096 % 16 = w.toNat / 4096
  omega
theorem field_four_one (w : Word) : w.field 4 1 = w.toNat % 16 := by simp [field, Nat.pow]
theorem field_three_two (w : Word) : w.field 3 2 = w.toNat % 256 := by simp [field, Nat.pow]
theorem val_x (w : Word) : w.x.val = w.toNat / 256 % 16 := by simp [x, lowNibble, field, Nat.pow]
theorem val_y (w : Word) : w.y.val = w.toNat / 16 % 16 := by simp [y, lowNibble, field, Nat.pow]
theorem val_n (w : Word) : w.n.val = w.toNat % 16 := by simp [n, lowNibble, field, Nat.pow]
theorem toNat_kk (w : Word) : w.kk.toNat = w.toNat % 256 := by simp [kk, field, Nat.pow]
theorem toNat_nnn (w : Word) : w.nnn.toNat = w.toNat % 4096 := by simp [nnn, field, Nat.pow]

end Word

end Chip8
