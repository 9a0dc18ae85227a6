import Chip8.Emulator.Loop

/-!
Runs of an emulator: what can be done to it (`Act`), the states that follow (`Emulator.Run`), and how a property
is carried along. `Emulator.Kept` lists what happens around the instructions and `Emulator.Invariant` adds the
instructions themselves; an invariant survives every act (`Emulator.Invariant.act`) and so every run. Where the
end of the program matters, `Emulator.Kept.catchUp` and `Emulator.Kept.runOnce` carry a property up to the end
and another one past it. A look at the display goes one of four ways (`Emulator.Looked`).
-/
namespace Chip8
variable {τ : Type}

/-- The attempt without its value. -/
def Attempt.forget {σ α : Type} (a : Attempt σ α) : Attempt σ Unit := ⟨a.state, a.result.map fun _ => ()⟩

/-- What can be done to an emulator: its operations; the parts of a pass, so that the states inside a pass are
    reached as well; instructions and pictures from outside; and another hand on the keyboard. -/
inductive Act (τ : Type) where
  | step
  | runOnce
  | syncTimers
  | syncDisplay (now : τ)
  | idle
  | run (polls : Nat → Poll) (first passes : Nat)
  | readClock
  | catchUp (now : τ) (budget : Nat)
  | dropBacklog (now : τ)
  | exec (i : Instruction)
  | paint (x y : Int) (rows : List Byte)
  | clear
  | hold (keyboard : Keyboard)

namespace Emulator
variable [Time τ]

def act (e : Emulator τ) : Act τ → Attempt (Emulator τ) Unit
  | .step => e.step.forget
  | .runOnce => e.runOnce.forget
  | .syncTimers => .done e.syncTimers ()
  | .syncDisplay now => .done (e.syncDisplay now).1 ()
  | .idle => .done e.idle ()
  | .run polls first passes => (e.run polls first passes).1.forget
  | .readClock => .done e.readClock ()
  | .catchUp now budget => Emulator.catchUp now budget e
  | .dropBacklog now => .done (e.dropBacklog now) ()
  | .exec i => e.exec i
  | .paint x y rows => .done { e with machine := (e.machine.paint x y rows).1 } ()
  | .clear => .done { e with machine := { e.machine with screen := e.machine.screen.clear } } ()
  | .hold keyboard => .done { e with machine := { e.machine with keyboard } } ()

/-- The end of the program was met, by a cycle that stops or by a pass that notes it. -/
def metEnd (a : Attempt (Emulator τ) Unit) : Bool :=
  a.state.finished || match a.result with | .error (.finished _) => true | _ => false

/-- The states that acts lead to from a given one, and whether the end of the program was met on the way. Which
    acts there may be depends on whether it was. -/
inductive Run (may : Bool → Act τ → Prop) (start : Emulator τ) : Bool → Emulator τ → Prop where
  | nil : Run may start false start
  | snoc {ended : Bool} {e : Emulator τ} {a : Act τ} (before : Run may start ended e) (allowed : may ended a) :
      Run may start (ended || metEnd (e.act a)) (e.act a).state

/-- Any acts lead to the state from the start with the setup. -/
def Reachable (s : Setup τ) (e : Emulator τ) : Prop :=
  ∃ start ended, Emulator.ofProgram s = .ok start ∧ start.Run (fun _ _ => True) ended e

/-- The four ways in which a look at the display goes: too early, with nothing touched since the last one, with the
    screen as it was presented last, and with a frame presented. -/
inductive Looked (e : Emulator τ) (now : τ) : Emulator τ × Bool → Prop where
  | early (early : now - e.lastRefresh < Time.sixtieth) : Looked e now (e, false)
  | clean (due : ¬ now - e.lastRefresh < Time.sixtieth) (clean : e.machine.screen.dirty = false) :
      Looked e now ({ e with lastRefresh := now }, false)
  | same (due : ¬ now - e.lastRefresh < Time.sixtieth) (dirty : e.machine.screen.dirty = true)
      (same : e.shown = some e.machine.screen.pixels) :
      Looked e now ({ e with
        lastRefresh := now
        machine := { e.machine with screen := { e.machine.screen with dirty := false } } }, false)
  | presented (due : ¬ now - e.lastRefresh < Time.sixtieth) (dirty : e.machine.screen.dirty = true)
      (other : e.shown ≠ some e.machine.screen.pixels) :
      Looked e now ({ e with
        lastRefresh := now
        machine := { e.machine with screen := { e.machine.screen with dirty := false } }
        shown := some e.machine.screen.pixels
        frameCount := e.frameCount + 1
        window := { e.window with frames := e.window.frames.push e.machine.screen.pixels } }, true)

theorem looked_syncDisplay (e : Emulator τ) (now : τ) : e.Looked now (e.syncDisplay now) := by
  unfold syncDisplay
  split
  next early => exact .early early
  next due =>
    cases touched : e.machine.screen.dirty with
    | false => exact .clean due touched
    | true =>
      simp only [Bool.not_true, Bool.false_eq_true, if_false]
      split
      next same => exact .same due touched same
      next other => exact .presented due touched other

/-- A look that is due presents a picture that was touched and is not the one shown. -/
theorem syncDisplay_of_touched {e : Emulator τ} {now : τ} (due : ¬ now - e.lastRefresh < Time.sixtieth)
    (dirty : e.machine.screen.dirty = true) (other : e.shown ≠ some e.machine.screen.pixels) :
    e.syncDisplay now = ({ e with
      lastRefresh := now
      machine := { e.machine with screen := { e.machine.screen with dirty := false } }
      shown := some e.machine.screen.pixels
      frameCount := e.frameCount + 1
      window := { e.window with frames := e.window.frames.push e.machine.screen.pixels } }, true) := by
  simp only [syncDisplay, if_neg due, dirty, Bool.not_true, Bool.false_eq_true, if_false, if_neg other]

/-- The display takes nothing from the machine but the mark that the screen was touched. -/
theorem machine_syncDisplay (e : Emulator τ) (now : τ) :
    ∃ dirty, (e.syncDisplay now).1.machine = { e.machine with screen := { e.machine.screen with dirty } } := by
  have looked := e.looked_syncDisplay now
  generalize e.syncDisplay now = after at looked ⊢
  cases looked with
  | early | clean => exact ⟨_, rfl⟩
  | same | presented => exact ⟨false, rfl⟩

theorem finished_syncDisplay (e : Emulator τ) (now : τ) : (e.syncDisplay now).1.finished = e.finished := by
  have looked := e.looked_syncDisplay now
  generalize e.syncDisplay now = after at looked ⊢
  cases looked <;> rfl

theorem dropBacklog_eq (e : Emulator τ) (now : τ) : ∃ lastCycle, e.dropBacklog now = { e with lastCycle } := by
  unfold dropBacklog
  split
  · exact ⟨now, rfl⟩
  · exact ⟨e.lastCycle, rfl⟩

/-- Between the passes the clock is read and may be slept on. -/
theorem idle_eq (e : Emulator τ) : ∃ clock, e.idle = { e with machine := { e.machine with clock } } := by
  simp only [idle]
  split
  · exact ⟨_, rfl⟩
  · exact ⟨_, rfl⟩

/-- The property survives what happens around the instructions. -/
structure Kept (P : Emulator τ → Prop) : Prop where
  timers {e : Emulator τ} : P e → P e.syncTimers
  display {e : Emulator τ} (now : τ) : P e → P (e.syncDisplay now).1
  stop {e : Emulator τ} : P e → P { e with speaker := e.speaker.stop }
  pace {e : Emulator τ} (clock : Clock τ) (keyboard : Keyboard) (lastCycle : τ) (cycles : Nat) (isOpen : Bool)
    (journal : Journal) : P e → P { e with
      machine := { e.machine with clock, keyboard }
      lastCycle, cycles, journal
      window := { e.window with isOpen } }

namespace Kept
variable {P Q : Emulator τ → Prop}

theorem readClock (kept : Kept P) {e : Emulator τ} (holds : P e) : P e.readClock :=
  kept.pace e.machine.clock.read e.machine.keyboard e.lastCycle e.cycles e.window.isOpen e.journal holds

theorem advance (kept : Kept P) {e : Emulator τ} (holds : P e) (t : τ) : P { e with lastCycle := t } :=
  kept.pace e.machine.clock e.machine.keyboard t e.cycles e.window.isOpen e.journal holds

theorem hold (kept : Kept P) {e : Emulator τ} (holds : P e) (keyboard : Keyboard) :
    P { e with machine := { e.machine with keyboard } } :=
  kept.pace e.machine.clock keyboard e.lastCycle e.cycles e.window.isOpen e.journal holds

theorem dropBacklog (kept : Kept P) {e : Emulator τ} (holds : P e) (now : τ) : P (e.dropBacklog now) := by
  obtain ⟨lastCycle, dropped⟩ := e.dropBacklog_eq now
  rw [dropped]
  exact kept.advance holds lastCycle

theorem idle (kept : Kept P) {e : Emulator τ} (holds : P e) : P e.idle := by
  obtain ⟨clock, idled⟩ := e.idle_eq
  rw [idled]
  exact kept.pace clock e.machine.keyboard e.lastCycle e.cycles e.window.isOpen e.journal holds

theorem poll (kept : Kept P) {e : Emulator τ} (holds : P e) (p : Poll) : P (e.poll p) := by
  obtain ⟨held, closes⟩ := p
  cases held with
  | none =>
    cases closes with
    | false => exact holds
    | true => exact kept.pace e.machine.clock e.machine.keyboard e.lastCycle e.cycles false e.journal holds
  | some names =>
    cases closes with
    | false => exact kept.hold holds (.holding names)
    | true => exact kept.pace e.machine.clock (.holding names) e.lastCycle e.cycles false e.journal holds

/-- What a pass does once its instructions ran. -/
theorem follow (kept : Kept P) {e : Emulator τ} (holds : P e) (now : τ) :
    P ((e.dropBacklog now).syncTimers.syncDisplay now).1 :=
  kept.display now (kept.timers (kept.dropBacklog holds now))

/-- The instructions of a pass carry `P` as long as every cycle does that does not meet the end, and lead to `Q` if
    every cycle does that meets it. -/
theorem catchUp (kept : Kept P)
    (cycle : ∀ {e : Emulator τ}, P e → (∀ pc, e.step.result ≠ .error (.finished pc)) → P e.step.state)
    (last : ∀ {e : Emulator τ} pc journal, P e → e.step.result = .error (.finished pc) →
      Q { e.step.state with finished := true, journal })
    (now : τ) (budget : Nat) {e : Emulator τ} (holds : P e) :
    P (Emulator.catchUp now budget e).state ∨ Q (Emulator.catchUp now budget e).state := by
  induction budget generalizing e with
  | zero => exact .inl holds
  | succ budget ih =>
    unfold Emulator.catchUp
    split
    case isFalse => exact .inl holds
    case isTrue =>
      have paced := kept.advance holds (e.lastCycle + e.interval)
      simp only
      split
      next ran => exact ih (cycle paced fun pc stops => by rw [ran] at stops; cases stops)
      next pc stops => exact .inr (last pc _ paced stops)
      next f other stops => exact .inl (cycle paced fun pc same => other pc (by rw [stops] at same; cases same; rfl))

theorem runOnce (kept : Kept P) (keptLast : Kept Q)
    (cycle : ∀ {e : Emulator τ}, P e → (∀ pc, e.step.result ≠ .error (.finished pc)) → P e.step.state)
    (last : ∀ {e : Emulator τ} pc journal, P e → e.step.result = .error (.finished pc) →
      Q { e.step.state with finished := true, journal })
    {e : Emulator τ} (holds : P e) : P e.runOnce.state ∨ Q e.runOnce.state := by
  have ran := kept.catchUp cycle last e.readClock.machine.clock.now maxCatchUp (kept.readClock holds)
  unfold Emulator.runOnce Attempt.andThen
  simp only
  split
  · exact ran.imp (kept.follow · _) (keptLast.follow · _)
  · exact ran

end Kept

/-- The property survives whatever is done. -/
structure Invariant (P : Emulator τ → Prop) : Prop extends Kept P where
  fetch {e : Emulator τ} : P e → P e.fetch.state
  exec {e : Emulator τ} (i : Instruction) : P e → P (e.exec i).state
  finish {e : Emulator τ} : P e → P { e with finished := true }
  paint {e : Emulator τ} (x y : Int) (rows : List Byte) : P e → P { e with machine := (e.machine.paint x y rows).1 }
  clear {e : Emulator τ} : P e → P { e with machine := { e.machine with screen := e.machine.screen.clear } }

namespace Invariant
variable {P : Emulator τ → Prop}

theorem step (inv : Invariant P) {e : Emulator τ} (holds : P e) : P e.step.state := by
  have fetched := inv.fetch holds
  unfold Emulator.step Attempt.andThen
  split
  next w _ =>
    have ran := inv.exec (.decode w) fetched
    simp only
    split
    · exact inv.pace _ _ _ _ _ _ ran
    · exact ran
  next => exact fetched

theorem catchUp (inv : Invariant P) (now : τ) (budget : Nat) {e : Emulator τ} (holds : P e) :
    P (Emulator.catchUp now budget e).state := by
  have ran := inv.toKept.catchUp (Q := P) (fun holds _ => inv.step holds)
    (fun _ journal holds _ => inv.pace _ _ _ _ _ journal (inv.finish (inv.step holds))) now budget holds
  exact ran.elim id id

theorem runOnce (inv : Invariant P) {e : Emulator τ} (holds : P e) : P e.runOnce.state := by
  have ran := inv.toKept.runOnce (Q := P) inv.toKept (fun holds _ => inv.step holds)
    (fun _ journal holds _ => inv.pace _ _ _ _ _ journal (inv.finish (inv.step holds))) holds
  exact ran.elim id id

theorem run (inv : Invariant P) (polls : Nat → Poll) (first passes : Nat) {e : Emulator τ} (holds : P e) :
    P (e.run polls first passes).1.state := by
  induction passes generalizing first e with
  | zero =>
    unfold Emulator.run
    split
    · exact holds
    · exact inv.stop holds
  | succ passes ih =>
    have passed := inv.runOnce (inv.poll holds (polls first))
    unfold Emulator.run
    split
    · simp only
      split
      · exact ih (first + 1) (inv.idle passed)
      · exact passed
    · exact inv.stop holds

theorem act (inv : Invariant P) {e : Emulator τ} (holds : P e) (a : Act τ) : P (e.act a).state := by
  cases a with
  | step => exact inv.step holds
  | runOnce => exact inv.runOnce holds
  | syncTimers => exact inv.timers holds
  | syncDisplay now => exact inv.display now holds
  | idle => exact inv.idle holds
  | run polls first passes => exact inv.run polls first passes holds
  | readClock => exact inv.readClock holds
  | catchUp now budget => exact inv.catchUp now budget holds
  | dropBacklog now => exact inv.dropBacklog holds now
  | exec i => exact inv.exec i holds
  | paint x y rows => exact inv.paint x y rows holds
  | clear => exact inv.clear holds
  | hold keyboard => exact inv.hold holds keyboard

/-- An invariant of the start holds all along a run. -/
theorem of_run (inv : Invariant P) {may : Bool → Act τ → Prop} {start e : Emulator τ} {ended : Bool}
    (run : start.Run may ended e) (holds : P start) : P e := by
  induction run with
  | nil => exact holds
  | snoc _ _ ih => exact inv.act ih _

end Invariant

end Emulator

end Chip8
