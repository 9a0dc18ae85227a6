import Chip8.CommandLine.Options
import Chip8.Text.Digit

/-!
What each argument of a command line is: a word, an option with or without a value of its own, an option
that nobody knows, or the separator `--` behind which every argument is a word. A long option may be cut
short as long as only one option begins so; what looks like a negative number or holds a blank is a word
unless it spells an option.
-/
namespace Chip8.CommandLine

inductive Token where
  | word (text : String)
  /-- A known option. A short one may carry further letters as its value. -/
  | switch (o : Switch) (short : Bool) (value : Option String)
  | unknown (text : String)
  | separator
deriving DecidableEq

namespace Token

/-- The text before the first equals sign and the text behind it. -/
def splitEquals? : List Char → Option (List Char × List Char)
  | [] => none
  | '=' :: rest => some ([], rest)
  | c :: rest => (splitEquals? rest).map fun (a, b) => (c :: a, b)

def isDigit (c : Char) : Bool := (Text.Digit.value? c).isSome

/-- A minus sign and digits, perhaps with a point before the last of them; one line feed may follow. -/
def isNegativeNumber (cs : List Char) : Bool :=
  let body := if cs.getLast? = some '\n' then cs.dropLast else cs
  match body with
  | '-' :: rest =>
    match rest.dropWhile isDigit with
    | [] => !rest.isEmpty
    | '.' :: fraction => !fraction.isEmpty && fraction.all isDigit
    | _ => false
  | _ => false

/-- The option that a long argument names, perhaps cut short, with the value behind its equals sign. -/
def ofLong (arg : String) : Except UsageError (Option Token) :=
  let (name, value) := match splitEquals? arg.toList with
    | some (name, value) => (name, some (String.ofList value))
    | none => (arg.toList, none)
  match Switch.spellings.filter fun (spelling, _) => name.isPrefixOf spelling.toList with
  | [] => .ok none
  | [(_, o)] => .ok (some (switch o false value))
  | several => .error (.ambiguous arg (several.map (·.1)))

/-- The option that the first letter of a short argument names; the rest is its value. -/
def ofShort (arg : String) : Option Token :=
  match arg.toList with
  | _ :: c :: rest => (Switch.ofLetter? c).map fun o => switch o true (some (String.ofList rest))
  | _ => none

/-- The option with exactly the spelling before the first equals sign. -/
def ofEquals? (arg : String) : Option Token :=
  match splitEquals? arg.toList with
  | some (name, value) =>
    (Switch.ofSpelling? (String.ofList name)).map fun o =>
      switch o (name.length = 2) (some (String.ofList value))
  | none => none

/-- The token for an argument that names no option. -/
def other (arg : String) : Token :=
  if isNegativeNumber arg.toList || arg.toList.contains ' ' then word arg else unknown arg

/-- The token of one argument before the separator. -/
def ofArg (arg : String) : Except UsageError Token :=
  match arg.toList with
  | [] | ['-'] => .ok (word arg)
  | '-' :: second :: _ =>
    match Switch.ofSpelling? arg, ofEquals? arg with
    | some o, _ => .ok (switch o (second ≠ '-') none)
    | none, some t => .ok t
    | none, none =>
      if second = '-' then (ofLong arg).map (·.getD (other arg)) else .ok ((ofShort arg).getD (other arg))
  | _ => .ok (word arg)

/-- The tokens of a command line. An ambiguous argument before the separator is refused at once. -/
def ofArgs : List String → Except UsageError (List Token)
  | [] => .ok []
  | arg :: rest =>
    if arg = "--" then .ok (separator :: rest.map word)
    else match ofArg arg with
      | .error e => .error e
      | .ok t => (ofArgs rest).map (t :: ·)

end Token

end Chip8.CommandLine
