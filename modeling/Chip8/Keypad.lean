import Chip8.Slot

/-!
The sixteen keys and the two latest looks at them. A look (`Keypad.poll`) replaces both: what was seen
last becomes what was seen before. A layout names the keys; names it does not know are passed over.
-/
namespace Chip8

namespace Layout

/-- The names of the keyboard keys that stand for the keys 0 to F: the block from 1 to 4 down to Z to V. -/
def names : List String := ["X", "1", "2", "3", "Q", "W", "E", "A", "S", "D", "Z", "C", "4", "R", "F", "V"]

/-- The keys by their names. -/
def standard : List (String × Key) := names.zip (List.finRange 16)

/-- The keys that the held names stand for. -/
def keys (held : List String) : List Key := held.filterMap fun name => List.lookup name standard

/-- Each key has one name, the one in its place. -/
theorem lookup_eq_some_iff {name : String} {key : Key} :
    List.lookup name standard = some key ↔ names.get key = name := by
  have back : ∀ key : Key, List.lookup (names.get key) standard = some key := by decide
  have listed : ∀ entry ∈ standard, names.get entry.2 = entry.1 := by decide
  constructor
  · intro known
    obtain ⟨before, after, parts, -⟩ := List.lookup_eq_some_iff.1 known
    exact listed (name, key) (by simp [parts])
  · rintro rfl
    exact back key

end Layout

/-- The keys down at the latest look and at the one before it. -/
structure Keypad where
  keys : Vector Bool 16
  previous : Vector Bool 16
deriving DecidableEq

namespace Keypad

def initial : Keypad := ⟨Vector.replicate 16 false, Vector.replicate 16 false⟩

/-- A look at the pad while the given keys are down. -/
def poll (k : Keypad) (down : List Key) : Keypad := ⟨Vector.ofFn fun i => decide (i ∈ down), k.keys⟩

/-- A look through a layout that gives each name a key number or nothing. A number out of range spoils
    the look: what was seen last is still kept as what was seen before. -/
def pollNumbers (k : Keypad) (layout : String → Option Int) (held : List String) : Keypad × Option SlotError :=
  match (held.filterMap layout).mapM (Slot.find .writing) with
  | .ok down => (k.poll down, none)
  | .error e => ({ k with previous := k.keys }, some e)

def isPressed (k : Keypad) (key : Key) : Bool := k.keys[key]

/-- The lowest key that is down. -/
def firstPressed? (k : Keypad) : Option Key := (List.finRange 16).find? fun i => k.keys[i]

/-- The lowest key that was down before and is up now. -/
def firstReleased? (k : Keypad) : Option Key := (List.finRange 16).find? fun i => k.previous[i] && !k.keys[i]

theorem isPressed_poll (k : Keypad) (down : List Key) (key : Key) : (k.poll down).isPressed key = true ↔ key ∈ down := by
  simp [poll, isPressed]

@[simp] theorem previous_poll (k : Keypad) (down : List Key) : (k.poll down).previous = k.keys := rfl

end Keypad

end Chip8
