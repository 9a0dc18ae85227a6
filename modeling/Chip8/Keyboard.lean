/-!
The keyboard: the keys held down at each look at it. What a look finds depends only on how many looks
came before it.
-/
namespace Chip8

/-- The names of the keys held down at each look, and how many looks there were. -/
structure Keyboard where
  names : Nat → List String
  looks : Nat

namespace Keyboard

/-- The same keys at every look. -/
def holding (names : List String) : Keyboard := ⟨fun _ => names, 0⟩

/-- The names that the next look finds. -/
def held (k : Keyboard) : List String := k.names k.looks

/-- The keyboard after a look. -/
def look (k : Keyboard) : Keyboard := { k with looks := k.looks + 1 }

end Keyboard

end Chip8
