/-!
Hexadecimal text of integers. A minus sign stands before the digits and counts towards the width, so
minus five in three places is `-05`.
-/
namespace Chip8.Text.Hex

/-- The upper-case digits of a number without leading zeros; zero has one digit. -/
def digits (n : Nat) : List Char := (Nat.toDigits 16 n).map Char.toUpper

/-- The last `count` lower-case digits of a number, zeros included. -/
def lastDigits : Nat → Nat → List Char
  | 0, _ => []
  | count + 1, n => lastDigits count (n / 16) ++ [Nat.digitChar (n % 16)]

/-- Zeros on the left fill the text up to the width. -/
def fill (width : Nat) (cs : List Char) : List Char := List.replicate (width - cs.length) '0' ++ cs

/-- Upper-case digits, at least `width` characters with the sign. -/
def upper (width : Nat) (n : Int) : String :=
  String.ofList (if n < 0 then '-' :: fill (width - 1) (digits n.natAbs) else fill width (digits n.natAbs))

/-- Lower-case digits behind `0x`, the sign first. -/
def marked (n : Int) : String :=
  String.ofList ((if n < 0 then ['-'] else []) ++ ['0', 'x'] ++ Nat.toDigits 16 n.natAbs)

/-- Exactly `count` lower-case digits, the most significant first. -/
def fixed (count n : Nat) : String := String.ofList (lastDigits count n)

end Chip8.Text.Hex
