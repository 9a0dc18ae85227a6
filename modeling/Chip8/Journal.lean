/-!
The journal of a run. Remarks are written only while it is verbose; warnings always.
-/
namespace Chip8

inductive Level where
  | debug
  | warning
deriving DecidableEq

namespace Level

def name : Level → String
  | debug => "DEBUG"
  | warning => "WARNING"

/-- The number by which levels are compared. -/
def severity : Level → Nat
  | debug => 10
  | warning => 30

end Level

structure Journal.Entry where
  level : Level
  text : String
deriving DecidableEq

namespace Journal.Entry

def line (e : Entry) : String := e.level.name ++ ": " ++ e.text

end Journal.Entry

/-- The entries so far, and whether remarks are added to them. -/
structure Journal where
  verbose : Bool
  entries : Array Journal.Entry
deriving DecidableEq

namespace Journal

def empty (verbose : Bool) : Journal := ⟨verbose, #[]⟩

/-- The lowest level that is written. -/
def threshold (j : Journal) : Level := if j.verbose then .debug else .warning

/-- A remark, its parts separated by blanks. -/
def remark (j : Journal) (parts : List String) : Journal :=
  if j.verbose then { j with entries := j.entries.push ⟨.debug, " ".intercalate parts⟩ } else j

def warn (j : Journal) (text : String) : Journal := { j with entries := j.entries.push ⟨.warning, text⟩ }

def lines (j : Journal) : List String := j.entries.toList.map Entry.line

end Journal

end Chip8
