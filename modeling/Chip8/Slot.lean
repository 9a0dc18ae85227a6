import Chip8.Index
import Chip8.Word

/-!
Sixteen numbered cells, as registers and keys are kept. Numbers 0 to 15 count from the first cell and
-1 to -16 from the last (`Slot.ofInt?`); any other number is out of range. A number of more than 64 bits is
refused as such (`Slot.find`).
-/
namespace Chip8

/-- A cell number out of range, met while a cell was read or while it was written, or one too wide to be a
    cell number at all. -/
inductive SlotError where
  | reading
  | writing
  | tooWide
deriving DecidableEq

namespace SlotError

def message : SlotError → String
  | reading => "list index out of range"
  | writing => "list assignment index out of range"
  | tooWide => "cannot fit 'int' into an index-sized integer"

end SlotError

namespace Slot

/-- The cell with the given number, negative numbers counted back from the last. -/
def ofInt? (i : Int) : Option (Fin 16) :=
  if 0 ≤ i ∧ i < 16 then some (lowNibble i.toNat)
  else if -16 ≤ i ∧ i < 0 then some (lowNibble (i + 16).toNat)
  else none

/-- The cell with the given number, or the reason why there is none. -/
def find (during : SlotError) (i : Int) : Except SlotError (Fin 16) :=
  match ofInt? i with
  | some k => .ok k
  | none => .error (if Index.fits i then during else .tooWide)

theorem ofInt?_natCast (k : Fin 16) : ofInt? (k.val : Int) = some k := by
  have bound := k.isLt
  unfold ofInt?
  rw [if_pos (by omega)]
  simp [lowNibble, Nat.mod_eq_of_lt bound]

end Slot

end Chip8
