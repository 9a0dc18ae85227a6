import Chip8.CommandLine.Token
import Chip8.Text.Numeral
import Chip8.Text.Quoted

/-!
Reading a command line. Tokens are taken from left to right: the first word is the program, further
words and unknown options are left over, an option takes effect where it stands and a later one wins.
Help ends the reading at once. What is left over is refused only at the end, after a missing program.
-/
namespace Chip8.CommandLine

/-- Why reading stops before the end of the command line. -/
inductive Stop where
  | help
  | refused (e : UsageError)
deriving DecidableEq

/-- What was read so far. -/
structure Progress where
  options : Options
  found : Bool
  extras : List String

namespace Progress

def initial : Progress := ⟨.ofRom "", false, []⟩

def extra (p : Progress) (text : String) : Progress := { p with extras := p.extras ++ [text] }

/-- A word is the program, or left over if there is one. -/
def word (p : Progress) (text : String) : Progress :=
  if p.found then p.extra text else { p with options := { p.options with rom := text }, found := true }

/-- A flag takes effect. -/
def set (p : Progress) (o : Switch) : Except Stop Progress :=
  let options := p.options
  let dialect := options.dialect
  match o with
  | .help => .error .help
  | .mute => .ok { p with options := { options with mute := true } }
  | .verbose => .ok { p with options := { options with verbose := true } }
  | .indexOverflow => .ok { p with options := { options with dialect := { dialect with indexOverflow := true } } }
  | .keyRelease => .ok { p with options := { options with dialect := { dialect with keyRelease := true } } }
  | .wrapSprites => .ok { p with options := { options with dialect := { dialect with wrapSprites := true } } }
  | .shiftUsesVy => .ok { p with options := { options with dialect := { dialect with shiftUsesVy := true } } }
  | .loadStoreIncrementsIndex =>
    .ok { p with options := { options with dialect := { dialect with loadStoreIncrementsIndex := true } } }
  | .rate | .scale => .ok p

def setAll : List Switch → Progress → Except Stop Progress
  | [], p => .ok p
  | o :: rest, p =>
    match p.set o with
    | .ok p => setAll rest p
    | .error s => .error s

/-- The number that the value of an option stands for. The separator stands for none. -/
def number? (o : Switch) (text : String) : Except UsageError (Option Int) :=
  if text = "--" then .ok none
  else match Text.Numeral.parse? text with
    | some n => .ok (some n)
    | none => .error (.invalidNumber o (Text.Quoted.render text))

/-- A number takes effect. -/
def setNumber (p : Progress) (o : Switch) (text : String) : Except Stop Progress :=
  match number? o text with
  | .ok n => .ok { p with options := if o = .rate then { p.options with rate := n } else { p.options with scale := n } }
  | .error e => .error (.refused e)

/-- The flags of an option and of the letters written behind it. None takes effect if one is unknown. -/
def cluster (o : Switch) : List Char → Except Stop (List Switch)
  | [] => .ok [o]
  | c :: rest =>
    match Switch.ofLetter? c with
    | some next => (cluster next rest).map (o :: ·)
    | none => .error (.refused (.unexpectedValue o (Text.Quoted.render (String.ofList (c :: rest)))))

/-- An option with a value of its own. -/
def setWith (p : Progress) (o : Switch) (short : Bool) (value : String) : Except Stop Progress :=
  if o.takesNumber then p.setNumber o value
  else if short && !value.isEmpty then
    match cluster o value.toList with
    | .ok flags => setAll flags p
    | .error s => .error s
  else .error (.refused (.unexpectedValue o (Text.Quoted.render value)))

/-- All tokens in turn. A separator directly behind the program belongs to it, and one before the program
    is dropped; any other is left over. -/
def takeAll : List Token → Progress → Except Stop Progress
  | [], p => .ok p
  | .word text :: .separator :: rest, p =>
    if p.found then takeAll rest ((p.extra text).extra "--") else takeAll rest (p.word text)
  | .word text :: rest, p => takeAll rest (p.word text)
  | .separator :: rest, p => takeAll rest (if p.found then p.extra "--" else p)
  | .unknown text :: rest, p => takeAll rest (p.extra text)
  | .switch o short (some value) :: rest, p =>
    match p.setWith o short value with
    | .ok p => takeAll rest p
    | .error s => .error s
  | .switch o _ none :: rest, p =>
    if o.takesNumber then
      match rest with
      | .word text :: rest =>
        match p.setNumber o text with
        | .ok p => takeAll rest p
        | .error s => .error s
      | _ => .error (.refused (.missingValue o))
    else match p.set o with
      | .ok p => takeAll rest p
      | .error s => .error s

/-- The options, if the program was named and nothing is left over. -/
def finish (p : Progress) : Except Stop Options :=
  if !p.found then .error (.refused .missingRom)
  else if !p.extras.isEmpty then .error (.refused (.unrecognized p.extras))
  else .ok p.options

end Progress

/-- The options of a command line. -/
def parse (args : List String) : Except Stop Options :=
  match Token.ofArgs args with
  | .error e => .error (.refused e)
  | .ok tokens =>
    match Progress.takeAll tokens .initial with
    | .error s => .error s
    | .ok p => p.finish

end Chip8.CommandLine
