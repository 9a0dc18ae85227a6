import Chip8.Index
import Chip8.Text.Hex
import Chip8.Word

/-!
Byte sequences from numbers and from hexadecimal text, and their text.
-/
namespace Chip8

/-- Why there are no bytes: a number that is no byte, no digit where a text needs one, or a count that is
    too wide. -/
inductive ByteError where
  | range
  | digit (position : Nat)
  | count
deriving DecidableEq

namespace ByteError

def message : ByteError → String
  | range => "bytes must be in range(0, 256)"
  | digit position => "non-hexadecimal number found in fromhex() arg at position " ++ toString position
  | count => "cannot fit 'int' into an index-sized integer"

end ByteError

namespace Bytes

/-- The bytes of numbers that all lie between 0 and 255. -/
def ofInts (numbers : Array Int) : Except ByteError (Array Byte) :=
  if numbers.all fun n => 0 ≤ n && n ≤ 255 then .ok (numbers.map (BitVec.ofInt 8)) else .error .range

/-- One byte many times; no times if the count is negative. -/
def replicate (count n : Int) : Except ByteError (Array Byte) :=
  if n < 0 ∨ 255 < n then .error .range
  else if Index.fits count then .ok (Array.replicate count.toNat (BitVec.ofInt 8 n))
  else .error .count

/-- The value of a hexadecimal digit of either case. -/
def digit? (c : Char) : Option Nat :=
  if '0' ≤ c ∧ c ≤ '9' then some (c.toNat - 48)
  else if 'a' ≤ c ∧ c ≤ 'f' then some (c.toNat - 87)
  else if 'A' ≤ c ∧ c ≤ 'F' then some (c.toNat - 55)
  else none

/-- The ASCII blanks: space, tab, line feed, vertical tab, form feed and carriage return. -/
def isBlank (c : Char) : Bool := c = ' ' || 9 ≤ c.toNat && c.toNat ≤ 13

/-- Reads pairs of digits, with blanks before and behind each pair but not inside it. The text starts at
    the given position; it must not end inside a pair. -/
def ofDigits (position : Nat) : List Char → Array Byte → Except ByteError (Array Byte)
  | [], bytes => .ok bytes
  | [c], bytes => if isBlank c then .ok bytes else .error (.digit (if (digit? c).isSome then position + 1 else position))
  | high :: low :: rest, bytes =>
    if isBlank high then ofDigits (position + 1) (low :: rest) bytes
    else match digit? high, digit? low with
      | none, _ => .error (.digit position)
      | some _, none => .error (.digit (position + 1))
      | some h, some l => ofDigits (position + 2) rest (bytes.push (BitVec.ofNat 8 (16 * h + l)))

/-- The bytes of a text of hexadecimal digits, two to a byte. A character beyond ASCII is refused before
    anything is read. -/
def ofHex (text : String) : Except ByteError (Array Byte) :=
  match text.toList.findIdx? fun c => 128 ≤ c.toNat with
  | some position => .error (.digit position)
  | none => ofDigits 0 text.toList #[]

/-- Two lower-case digits for each byte. -/
def toHex (bytes : List Byte) : String := String.join (bytes.map fun b => Text.Hex.fixed 2 b.toNat)

end Bytes

end Chip8
