import Chip8.Text.Hex
import Chip8.Text.Printable

/-!
Text between quotes, on one line. Single quotes are used unless the text holds one and no double quote.
The quote and the backslash stand behind a backslash; tab, line feed and carriage return have letters,
and all other characters that are not printable are written as their number in hexadecimal.
-/
namespace Chip8.Text.Quoted

def singleQuote : Char := Char.ofNat 39
def doubleQuote : Char := Char.ofNat 34
def backslash : Char := Char.ofNat 92

/-- The quote that a text is put between. -/
def quoteFor (cs : List Char) : Char :=
  if cs.contains singleQuote && !cs.contains doubleQuote then doubleQuote else singleQuote

/-- The number of a character behind a letter that tells its width: two, four or eight digits. -/
def numbered (c : Char) : List Char :=
  let n := c.toNat
  let (letter, count) := if n < 0x100 then ('x', 2) else if n < 0x10000 then ('u', 4) else ('U', 8)
  backslash :: letter :: Hex.lastDigits count n

/-- How a character is written between the given quotes. -/
def escape (quote c : Char) : List Char :=
  if c = quote ∨ c = backslash then [backslash, c]
  else if c.toNat = 9 then [backslash, 't']
  else if c.toNat = 10 then [backslash, 'n']
  else if c.toNat = 13 then [backslash, 'r']
  else if Printable.isPrintable c then [c]
  else numbered c

def encode (cs : List Char) : List Char := quoteFor cs :: cs.flatMap (escape (quoteFor cs)) ++ [quoteFor cs]

/-- The text between quotes. -/
def render (s : String) : String := String.ofList (encode s.toList)

end Chip8.Text.Quoted
