import Chip8.Dialect

/-!
What the command line can ask for, how it is spelled, and the texts that explain it. Every option is a
flag but `--hz` and `--scale`, which take a whole number. Where the separator `--` stands for the value of
one, as in `--hz=--`, the option is given without a number.
-/
namespace Chip8.CommandLine

/-- What a command line asks for. -/
structure Options where
  rom : String
  /-- Instructions per second. -/
  rate : Option Int
  /-- Window pixels per pixel. -/
  scale : Option Int
  mute : Bool
  verbose : Bool
  dialect : Dialect
deriving DecidableEq

namespace Options

/-- Instructions per second, unless the command line says otherwise. -/
def defaultRate : Int := 700
/-- Window pixels per pixel, unless the command line says otherwise. -/
def defaultScale : Int := 10

/-- The options of a command line that names the program and nothing else. -/
def ofRom (rom : String) : Options := ⟨rom, some defaultRate, some defaultScale, false, false, .plain⟩

end Options

/-- An option, whatever its spelling. -/
inductive Switch where
  | help
  | rate
  | scale
  | mute
  | verbose
  | indexOverflow
  | keyRelease
  | wrapSprites
  | shiftUsesVy
  | loadStoreIncrementsIndex
deriving DecidableEq

namespace Switch

/-- The spellings of all options, in the order in which abbreviations are tried. -/
def spellings : List (String × Switch) :=
  [("-h", help), ("--help", help), ("--hz", rate), ("--scale", scale), ("--mute", mute), ("-v", verbose),
    ("--verbose", verbose), ("--index-overflow", indexOverflow), ("--key-release", keyRelease),
    ("--wrap-sprites", wrapSprites), ("--shift-uses-vy", shiftUsesVy),
    ("--load-store-increments-index", loadStoreIncrementsIndex)]

/-- The option with exactly this spelling. -/
def ofSpelling? (s : String) : Option Switch := List.lookup s spellings

/-- The option of a single letter. -/
def ofLetter? (c : Char) : Option Switch := ofSpelling? (String.ofList ['-', c])

/-- The option needs a number. -/
def takesNumber : Switch → Bool
  | rate | scale => true
  | _ => false

/-- All spellings of an option, as messages name it. -/
def label (o : Switch) : String := "/".intercalate ((spellings.filter (·.2 = o)).map (·.1))

end Switch

/-- Why a command line is refused. -/
inductive UsageError where
  | ambiguous (arg : String) (candidates : List String)
  | missingValue (o : Switch)
  | invalidNumber (o : Switch) (quoted : String)
  | unexpectedValue (o : Switch) (quoted : String)
  | missingRom
  | unrecognized (args : List String)
deriving DecidableEq

namespace UsageError

def message : UsageError → String
  | ambiguous arg candidates => "ambiguous option: " ++ arg ++ " could match " ++ ", ".intercalate candidates
  | missingValue o => "argument " ++ o.label ++ ": expected one argument"
  | invalidNumber o quoted => "argument " ++ o.label ++ ": invalid int value: " ++ quoted
  | unexpectedValue o quoted => "argument " ++ o.label ++ ": ignored explicit argument " ++ quoted
  | missingRom => "the following arguments are required: rom"
  | unrecognized args => "unrecognized arguments: " ++ " ".intercalate args

end UsageError

def joinLines (ls : List String) : String := String.join (ls.map (· ++ "\n"))

def usage : String := joinLines [
  "usage: chip8emu [-h] [--hz HZ] [--scale SCALE] [--mute] [-v]",
  "                [--index-overflow] [--key-release] [--wrap-sprites]",
  "                [--shift-uses-vy] [--load-store-increments-index]",
  "                rom"]

def help : String := usage ++ joinLines [
  "",
  "CHIP-8 emulator. Keys 1234/QWER/ASDF/ZXCV, ESC quits, F1 toggles logs.",
  "",
  "positional arguments:",
  "  rom                   path to the ROM file",
  "",
  "options:",
  "  -h, --help            show this help message and exit",
  "  --hz HZ               instructions per second (default: " ++ toString Options.defaultRate ++ ")",
  "  --scale SCALE         window pixels per CHIP-8 pixel (default: " ++ toString Options.defaultScale ++ ")",
  "  --mute                disable the beeper",
  "  -v, --verbose         start with logs on",
  "",
  "quirks:",
  "  --index-overflow      FX1E sets VF when I leaves 0x000-0xFFF",
  "  --key-release         FX0A waits for a key to be released",
  "  --wrap-sprites        sprites wrap around the screen edges instead of",
  "                        clipping",
  "  --shift-uses-vy       8XY6/8XYE shift VY into VX",
  "  --load-store-increments-index",
  "                        FX55/FX65 leave I past the last register"]

/-- The text for a command line that is refused. -/
def complaint (e : UsageError) : String := usage ++ "chip8emu: error: " ++ e.message ++ "\n"

end Chip8.CommandLine
