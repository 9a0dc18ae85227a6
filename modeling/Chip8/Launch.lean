import Chip8.CommandLine.Parse
import Chip8.Directory
import Chip8.Emulator.Loop

/-!
A whole run from the command line: the arguments are read, then the machine is made, the program loaded,
the window opened and the emulator run until it ends. A launch reports how it ended, what it printed and
what became of the window (`Launch.Report`).
-/
namespace Chip8.Launch
open CommandLine

/-- How a launch ends. -/
inductive Ending where
  /-- The launch is over, with this exit code. -/
  | code (n : Nat)
  /-- The command line ended it: help was asked for, or it was refused. -/
  | commandLine (why : Stop)
  /-- The path of the program holds a NUL. -/
  | badPath
  | badRate (e : FrequencyError)
  /-- The rate was given without a number. -/
  | noRate
  /-- The passes did not suffice. -/
  | unfinished
deriving DecidableEq

/-- The text of the error that a rate without a number leads to. -/
def noRateMessage : String := "unsupported operand type(s) for /: 'float' and 'list'"

/-- What became of the window. There is no emulator where it could not be started. -/
structure Session (τ : Type) where
  scale : Option Int
  mute : Bool
  polls : Nat
  closed : Nat
  emulator : Option (Emulator τ)

structure Report (τ : Type) where
  ending : Ending
  output : String
  errors : String
  session : Option (Session τ)

/-- What a launch starts from: the files it can read, the clock and the random bytes. -/
structure Resources (τ : Type) where
  read : String → Except PathError (Array Byte)
  clock : Clock τ
  random : RandomSource

namespace Report
variable {τ : Type}

/-- A report of a launch that came to its end without a word on its output. -/
def ofJournal (ending : Ending) (journal : Journal) (messages : List String) (session : Option (Session τ)) : Report τ :=
  ⟨ending, "", String.join ((journal.lines ++ messages).map (· ++ "\n")), session⟩

/-- A report of a launch that the command line ended. -/
def ofStop (s : Stop) : Report τ :=
  match s with
  | .help => ⟨.commandLine s, help, "", none⟩
  | .refused e => ⟨.commandLine s, "", complaint e, none⟩

end Report

/-- The message of an emulation that a fault ended. -/
def faultMessage (f : Fault) : String := "Emulation error: " ++ f.message

variable {τ : Type} [Time τ]

/-- Opens the window for a loaded machine and starts the emulator. A missing rate and a rate without a
    period leave the window open. -/
def openWindow (o : Options) (machine : Machine τ) (journal : Journal) : Except (Report τ) (Options × Emulator τ) :=
  let failed (ending : Ending) : Report τ := .ofJournal ending journal [] (some ⟨o.scale, o.mute, 0, 0, none⟩)
  match o.rate with
  | none => .error (failed .noRate)
  | some rate =>
    match Emulator.start machine rate ⟨true, #[]⟩ .silent journal with
    | .error e => .error (failed (.badRate e))
    | .ok e => .ok (o, e)

/-- Makes the machine, reads and loads the program and opens the window. No window is opened where the
    program cannot be read or loaded. -/
def prepare (r : Resources τ) (o : Options) : Except (Report τ) (Options × Emulator τ) :=
  let machine := Machine.initial o.dialect r.random r.clock
  let journal := (Journal.empty o.verbose).remark ["Loading ROM:", o.rom]
  match r.read o.rom with
  | .error .embeddedNul => .error (.ofJournal .badPath journal [] none)
  | .error (.refused why) => .error (.ofJournal (.code 1) journal [(RomError.unreadable o.rom why).message] none)
  | .ok program =>
    match machine.load program journal with
    | .error e => .error (.ofJournal (.code 1) journal [e.message] none)
    | .ok (machine, journal) => openWindow o machine journal

/-- The report of a run that ended. The window is closed, whatever ended the run. -/
def conclude (o : Options) (polls : Nat) (ran : Attempt (Emulator τ) (Option Bool)) : Report τ :=
  let session := some ⟨o.scale, o.mute, polls, 1, some ran.state⟩
  match ran.result with
  | .ok (some _) => .ofJournal (.code 0) ran.state.journal [] session
  | .ok none => .ofJournal .unfinished ran.state.journal [] session
  | .error f => .ofJournal (.code 1) ran.state.journal [faultMessage f] session

/-- The whole run for a list of arguments, in a window with the given events. -/
def launch (r : Resources τ) (polls : Nat → Poll) (passes : Nat) (args : List String) : Report τ :=
  match parse args with
  | .error s => .ofStop s
  | .ok o =>
    match prepare r o with
    | .error report => report
    | .ok (o, e) => let (ran, polled) := e.run polls 0 passes; conclude o polled ran

end Chip8.Launch
