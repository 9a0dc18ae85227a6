import Chip8.Emulator

/-!
The loop. A pass runs the instructions that are due, at most ten (`Emulator.catchUp`), then lets the
timers and the display follow (`Emulator.runOnce`); between passes the loop sleeps (`Emulator.idle`). It
ends when the window is closed or the program has finished (`Emulator.run`).
-/
namespace Chip8

/-- What a look at the window's events brings: the keys held from now on, unless nothing changed, and
    whether the window was closed. -/
structure Poll where
  held : Option (List String)
  closes : Bool
deriving DecidableEq

namespace Emulator
variable {τ : Type} [Time τ]

/-- The most instructions that one pass runs. -/
def maxCatchUp : Nat := 10

/-- An instruction is due. -/
def due (e : Emulator τ) (now : τ) : Prop := e.interval ≤ now - e.lastCycle

instance (e : Emulator τ) (now : τ) : Decidable (e.due now) := inferInstanceAs (Decidable (_ ≤ _))

/-- Runs what is due at the given time, at most so many instructions. The end of the program is noted
    and ends the pass; other faults go through. -/
def catchUp (now : τ) : Nat → Emulator τ → Attempt (Emulator τ) Unit
  | 0, e => .done e ()
  | budget + 1, e =>
    if e.due now then
      let stepped := { e with lastCycle := e.lastCycle + e.interval }.step
      match stepped.result with
      | .ok _ => catchUp now budget stepped.state
      | .error (.finished pc) =>
        let e := stepped.state
        .done { e with finished := true, journal := e.journal.remark [(Fault.finished pc).message] } ()
      | .error f => .stopped stepped.state f
    else .done e ()

/-- Gives up what is still due. -/
def dropBacklog (e : Emulator τ) (now : τ) : Emulator τ := if e.due now then { e with lastCycle := now } else e

/-- The clock of the machine is read. -/
def readClock (e : Emulator τ) : Emulator τ := { e with machine := { e.machine with clock := e.machine.clock.read } }

/-- One pass. Its value tells whether the program goes on. -/
def runOnce (e : Emulator τ) : Attempt (Emulator τ) Bool :=
  let e := e.readClock
  let now := e.machine.clock.now
  (catchUp now maxCatchUp e).andThen fun e () =>
    let e := ((e.dropBacklog now).syncTimers.syncDisplay now).1
    .done e (!e.finished)

/-- Sleeps until an instruction or the display is due, at most a millisecond. -/
def idle (e : Emulator τ) : Emulator τ :=
  let e := e.readClock
  let clock := e.machine.clock
  let due := Time.earlier (e.lastCycle + e.interval) (e.lastRefresh + Time.sixtieth)
  if clock.now < due then
    { e with machine := { e.machine with clock := clock.sleep (Time.earlier (due - clock.now) Time.millisecond) } }
  else e

/-- The window's events take effect. -/
def poll (e : Emulator τ) (p : Poll) : Emulator τ :=
  { e with
    machine := p.held.elim e.machine e.machine.hold
    window := if p.closes then { e.window with isOpen := false } else e.window }

/-- The loop goes on. -/
def running (e : Emulator τ) : Bool := e.window.isOpen && !e.finished

/-- Runs the loop until it ends, for at most `passes` passes; pass number `first` meets the events
    `polls first`. The value of a loop that ended tells whether the program finished, and there is none
    where the passes did not suffice. The beep is stopped at the end, though not when a fault goes
    through. With the attempt comes the number of the first pass not begun. -/
def run (polls : Nat → Poll) (first : Nat) : Nat → Emulator τ → Attempt (Emulator τ) (Option Bool) × Nat
  | passes, e =>
    if e.running then
      match passes with
      | 0 => (.done e none, first)
      | passes + 1 =>
        let pass := (e.poll (polls first)).runOnce
        match pass.result with
        | .ok _ => run polls (first + 1) passes pass.state.idle
        | .error f => (.stopped pass.state f, first + 1)
    else (.done { e with speaker := e.speaker.stop } (some e.finished), first)

end Emulator

end Chip8
