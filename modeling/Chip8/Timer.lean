import Chip8.Time
import Chip8.Word

/-!
A counter that goes down sixty times a second until it is zero. A tick may come at any time: it counts
only once a sixtieth of a second has passed since the last tick that did so, or since the timer was set.
-/
namespace Chip8

/-- The count, and when it was set or when a sixtieth had last passed. -/
structure Timer (τ : Type) where
  count : Byte
  last : τ
deriving DecidableEq

namespace Timer
variable {τ : Type}

/-- A timer set to a count at the given time. -/
def start (count : Byte) (now : τ) : Timer τ := ⟨count, now⟩

def active (t : Timer τ) : Bool := t.count != 0

/-- A tick at the given time, and whether the count went down. -/
def tick [Time τ] (t : Timer τ) (now : τ) : Timer τ × Bool :=
  if now - t.last < Time.sixtieth then (t, false)
  else if t.count = 0 then ({ t with last := now }, false)
  else (⟨t.count - 1, now⟩, true)

def describe (t : Timer τ) : String := "Timer(" ++ toString t.count.toNat ++ ")"

end Timer

end Chip8
