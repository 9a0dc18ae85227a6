import Chip8.Instruction.Decode
import Chip8.Journal
import Chip8.Machine.Describe
import Chip8.Machine.Execute

/-!
A machine at work: its pace, the window that shows its screen, the speaker that its sound timer drives
and the journal of what it did. Instructions run one at a time (`Emulator.step`); the speaker follows
the sound timer (`Emulator.syncTimers`) and the window the screen (`Emulator.syncDisplay`). The journal
is written and never read.
-/
namespace Chip8

/-- The window, which keeps every frame that was presented to it. -/
structure Window where
  isOpen : Bool
  frames : Array Frame
deriving DecidableEq

/-- Whether the beep sounds, and how often it was started and stopped. -/
structure Speaker where
  playing : Bool
  plays : Nat
  stops : Nat
deriving DecidableEq

namespace Speaker

def silent : Speaker := ⟨false, 0, 0⟩
def play (s : Speaker) : Speaker := { s with playing := true, plays := s.plays + 1 }
def stop (s : Speaker) : Speaker := { s with playing := false, stops := s.stops + 1 }

end Speaker

structure Emulator (τ : Type) where
  machine : Machine τ
  /-- The time that one instruction is given. -/
  interval : τ
  /-- How far the instructions have come, as a time. -/
  lastCycle : τ
  lastRefresh : τ
  /-- The frame presented last. -/
  shown : Option Frame
  cycles : Nat
  frameCount : Nat
  finished : Bool
  window : Window
  speaker : Speaker
  journal : Journal

/-- Why an emulator cannot be started. -/
inductive StartError where
  | rom (e : RomError)
  | frequency (e : FrequencyError)
deriving DecidableEq

namespace StartError

def message : StartError → String
  | rom e => e.message
  | frequency e => e.message

end StartError

/-- What an emulator is started with: the rate in instructions per second, and the program. -/
structure Setup (τ : Type) where
  program : Array Byte
  rate : Int
  dialect : Dialect
  random : RandomSource
  clock : Clock τ
  verbose : Bool
  isOpen : Bool

namespace Machine
variable {τ : Type}

/-- Loads a program and notes its size. -/
def load (m : Machine τ) (program : Array Byte) (journal : Journal) : Except RomError (Machine τ × Journal) :=
  match m.core.load program with
  | .ok core =>
    .ok ({ m with core },
      journal.remark ["Loaded " ++ toString program.size ++ " bytes, program ends at", Text.Hex.marked core.pc.limit])
  | .error e => .error e

end Machine

namespace Emulator
variable {τ : Type}

/-- An emulator around a machine, paced at the given rate from a reading of the clock on. -/
def start [Time τ] (machine : Machine τ) (rate : Int) (window : Window) (speaker : Speaker) (journal : Journal) :
    Except FrequencyError (Emulator τ) :=
  match (Time.period rate : Except FrequencyError τ) with
  | .ok interval => .ok {
      machine := { machine with clock := machine.clock.read }
      interval := interval
      lastCycle := machine.clock.read.now
      lastRefresh := machine.clock.read.now
      shown := none
      cycles := 0
      frameCount := 0
      finished := false
      window := window
      speaker := speaker
      journal := journal }
  | .error e => .error e

/-- An emulator with a program. A failed start still leaves its journal. -/
def ofProgram [Time τ] (s : Setup τ) : Except (StartError × Journal) (Emulator τ) :=
  let journal := Journal.empty s.verbose
  match (Machine.initial s.dialect s.random s.clock).load s.program journal with
  | .error e => .error (.rom e, journal)
  | .ok (machine, journal) =>
    match start machine s.rate ⟨s.isOpen, #[]⟩ .silent journal with
    | .ok e => .ok e
    | .error e => .error (.frequency e, journal)

/-- What the journal says about an instruction that ran. -/
def note (journal : Journal) (before : Machine τ) (i : Instruction) (after : Machine τ) : Journal :=
  let journal := (before.warning? i).elim journal journal.warn
  if journal.verbose then (before.remark? i after).elim journal fun text => journal.remark [text] else journal

/-- Runs an instruction that was not fetched. -/
def exec (e : Emulator τ) (i : Instruction) : Attempt (Emulator τ) Unit :=
  let ran := e.machine.execute i
  match ran.result with
  | .ok () => .done { e with machine := ran.state, journal := note e.journal e.machine i ran.state } ()
  | .error f => .stopped { e with machine := ran.state } f

def fetch (e : Emulator τ) : Attempt (Emulator τ) Word :=
  e.machine.core.fetch.within fun core => { e with machine := { e.machine with core } }

/-- One cycle: an instruction is fetched and run, and counted unless a fault stopped it. -/
def step (e : Emulator τ) : Attempt (Emulator τ) Instruction :=
  e.fetch.andThen fun e w =>
    (e.exec (.decode w)).andThen fun e () => .done { e with cycles := e.cycles + 1 } (.decode w)

/-- The timers tick; the beep sounds while the sound timer runs and is stopped after it. -/
def syncTimers [Time τ] (e : Emulator τ) : Emulator τ :=
  let machine := e.machine.tickTimers
  { e with
    machine := machine
    speaker := if machine.sound.active then e.speaker.play else if e.speaker.playing then e.speaker.stop else e.speaker }

/-- Presents the screen if a sixtieth of a second has passed since the last look at it, it has been
    touched since then, and it differs from the frame presented last. -/
def syncDisplay [Time τ] (e : Emulator τ) (now : τ) : Emulator τ × Bool :=
  if now - e.lastRefresh < Time.sixtieth then (e, false)
  else if !e.machine.screen.dirty then ({ e with lastRefresh := now }, false)
  else
    let pixels := e.machine.screen.pixels
    let e := { e with
      lastRefresh := now
      machine := { e.machine with screen := { e.machine.screen with dirty := false } } }
    if e.shown = some pixels then (e, false)
    else ({ e with
      shown := some pixels
      frameCount := e.frameCount + 1
      window := { e.window with frames := e.window.frames.push pixels } }, true)

end Emulator

end Chip8
