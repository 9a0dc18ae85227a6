/-!
The points in which interpreters of the machine differ, each off or on. All off is the common modern
behaviour.
-/
namespace Chip8

structure Dialect where
  /-- Adding to I sets VF to whether the sum leaves the 12-bit addresses. -/
  indexOverflow : Bool
  /-- Waiting for a key ends when one is released, not when one is pressed. -/
  keyRelease : Bool
  /-- Sprites wrap around the edges of the screen. -/
  wrapSprites : Bool
  /-- A shift reads Vy and stores into Vx. -/
  shiftUsesVy : Bool
  /-- Storing or loading registers leaves I behind the last one. -/
  loadStoreIncrementsIndex : Bool
deriving DecidableEq

namespace Dialect

def plain : Dialect := ⟨false, false, false, false, false⟩

/-- The names of the points, in order. -/
def names : List String := ["index_overflow", "key_release", "wrap_sprites", "shift_uses_vy", "load_store_increments_index"]

def flags (d : Dialect) : List Bool := [d.indexOverflow, d.keyRelease, d.wrapSprites, d.shiftUsesVy, d.loadStoreIncrementsIndex]

/-- The dialect in which the named points are on. -/
def ofNames (on : List String) : Dialect :=
  ⟨on.contains "index_overflow", on.contains "key_release", on.contains "wrap_sprites", on.contains "shift_uses_vy",
    on.contains "load_store_increments_index"⟩

/-- The names of the points that are on. -/
def toNames (d : Dialect) : List String := ((names.zip d.flags).filter (·.2)).map (·.1)

def describe (d : Dialect) : String :=
  "Quirks(" ++ ", ".intercalate ((names.zip d.flags).map fun (n, b) => n ++ "=" ++ (if b then "True" else "False")) ++ ")"

end Dialect

end Chip8
