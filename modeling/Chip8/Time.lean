/-!
Points in time and lengths of time, in binary64 or exactly (`Time`), and a clock that shows them
(`Clock`). A clock is only ever read, advanced or slept on; what its next reading shows depends on how
often it was read and on what it shows now.
-/
namespace Chip8

/-- A rate that has no period. -/
inductive FrequencyError where
  | zero
  | tooLarge
deriving DecidableEq

namespace FrequencyError

def message : FrequencyError → String
  | zero => "float division by zero"
  | tooLarge => "int too large to convert to float"

end FrequencyError

/-- Numbers that can measure time: fractions and periods can be formed, times added, subtracted and
    compared. -/
class Time (τ : Type) extends Add τ, Sub τ, LT τ, LE τ where
  lt_decidable : DecidableLT τ
  le_decidable : DecidableLE τ
  /-- The fraction of a second. -/
  fraction : Int → Int → τ
  /-- The length of one of `rate` equal parts of a second. -/
  period : Int → Except FrequencyError τ

namespace Time
variable {τ : Type} [Time τ]

instance : DecidableLT τ := Time.lt_decidable
instance : DecidableLE τ := Time.le_decidable

/-- How often timers count and the screen is refreshed in a second. -/
def refreshRate : Int := 60
/-- The time between two counts or two refreshes. -/
def sixtieth : τ := fraction 1 refreshRate
/-- The longest sleep between two passes. -/
def millisecond : τ := fraction 1 1000

/-- The second time if it is earlier, else the first. -/
def earlier (a b : τ) : τ := if b < a then b else a

end Time

/-- Binary64 time. A rate beyond the range of binary64 has no period. -/
instance : Time Float where
  lt_decidable := inferInstance
  le_decidable := inferInstance
  fraction n d := Float.ofInt n / Float.ofInt d
  period rate :=
    if rate = 0 then .error .zero
    else if (Float.ofInt rate).isInf then .error .tooLarge
    else .ok (1.0 / Float.ofInt rate)

/-- Exact time. -/
instance : Time Rat where
  lt_decidable := inferInstance
  le_decidable := inferInstance
  fraction n d := n / d
  period rate := if rate = 0 then .error .zero else .ok (1 / rate)

/-- A clock: what it shows, how often it was read, and what its readings show. The reading numbered `n`
    from zero shows `reading n now` when the clock shows `now` before it. -/
structure Clock (τ : Type) where
  now : τ
  reading : Nat → τ → τ
  reads : Nat
  /-- The sleeps taken, in order. -/
  slept : Array τ

namespace Clock
variable {τ : Type}

/-- A clock that gains `tick` before each reading. -/
def ticking [Time τ] (start tick : τ) : Clock τ := ⟨start, fun _ now => now + tick, 0, #[]⟩

/-- A clock that stands still however often it is read. -/
def still (now : τ) : Clock τ := ⟨now, fun _ now => now, 0, #[]⟩

/-- The clock once it is read; the reading is what it then shows. -/
def read (c : Clock τ) : Clock τ := { c with now := c.reading c.reads c.now, reads := c.reads + 1 }

/-- Time passes without a reading. -/
def advance [Time τ] (c : Clock τ) (span : τ) : Clock τ := { c with now := c.now + span }

def sleep [Time τ] (c : Clock τ) (span : τ) : Clock τ := { c.advance span with slept := c.slept.push span }

end Clock

end Chip8
