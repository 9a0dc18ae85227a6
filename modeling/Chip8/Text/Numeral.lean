import Chip8.Text.Digit

/-!
Whole numbers as they are typed: blanks around them, a sign, and digits of any script with single
underscores between them. A numeral of more than 4300 digits is refused (`Numeral.maxDigits`).
-/
namespace Chip8.Text.Numeral

def maxDigits : Nat := 4300

/-- Blanks that may surround a numeral: those of ASCII, and the wide ones. -/
def isBlank (c : Char) : Bool := c = ' ' || (9 ≤ c.toNat && c.toNat ≤ 13) || Digit.wideBlanks.contains c.toNat

def trim (cs : List Char) : List Char := ((cs.dropWhile isBlank).reverse.dropWhile isBlank).reverse

/-- The digits of a numeral without sign, single underscores between them left out. -/
def digits? : List Char → Option (List Nat)
  | [] => none
  | [c] => (Digit.value? c).map ([·])
  | c :: d :: rest =>
    match Digit.value? c with
    | none => none
    | some v => (if d = '_' then digits? rest else digits? (d :: rest)).map (v :: ·)

/-- The number with the given digits, the most significant first. -/
def ofDigits (ds : List Nat) : Nat := ds.foldl (fun n d => 10 * n + d) 0

def magnitude? (cs : List Char) : Option Nat :=
  match digits? cs with
  | some ds => if ds.length ≤ maxDigits then some (ofDigits ds) else none
  | none => none

/-- The number that a text denotes. -/
def parse? (s : String) : Option Int :=
  match trim s.toList with
  | '-' :: rest => (magnitude? rest).map fun n => -(n : Int)
  | '+' :: rest => (magnitude? rest).map fun n => (n : Int)
  | cs => (magnitude? cs).map fun n => (n : Int)

end Chip8.Text.Numeral
