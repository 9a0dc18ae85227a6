/-!
The binary64 number nearest to a fraction. The fraction is scaled so that its whole part is the
significand, rounded once (`Binary64.roundDiv`), and scaled back, which is exact.
-/
namespace Chip8

/-- A fraction that is no binary64 number. -/
inductive FractionError where
  | zeroDenominator
  | tooLarge
deriving DecidableEq

namespace FractionError

def message : FractionError → String
  | zeroDenominator => "division by zero"
  | tooLarge => "integer division result too large for a float"

end FractionError

namespace Binary64

/-- The whole number nearest to a fraction; a half goes to the even neighbour. -/
def roundDiv (n d : Nat) : Nat :=
  if d < 2 * (n % d) ∨ d = 2 * (n % d) ∧ n / d % 2 = 1 then n / d + 1 else n / d

/-- The power of two at or below a positive fraction, as an exponent. -/
def exponent (n d : Nat) : Int :=
  let e : Int := n.log2 - d.log2
  if d <<< n.log2 ≤ n <<< d.log2 then e else e - 1

/-- The exponent of the last place of a significand of 53 bits, or of the least place there is. -/
def lastPlace (n d : Nat) : Int := max (exponent n d - 52) (-1074)

/-- The number nearest to a fraction, infinite if the fraction lies beyond all numbers. -/
def nearest (n d : Nat) : Float :=
  let e := lastPlace n d
  (Float.ofNat (roundDiv (n <<< (-e).toNat) (d <<< e.toNat))).scaleB e

/-- The number nearest to a fraction; a zero too has a minus sign if just one of the two parts is negative. -/
def ofFraction (n d : Int) : Except FractionError Float :=
  if d = 0 then .error .zeroDenominator
  else
    let magnitude := nearest n.natAbs d.natAbs
    if magnitude.isInf then .error .tooLarge
    else .ok (if decide (n < 0) = decide (d < 0) then magnitude else -magnitude)

end Binary64

end Chip8
