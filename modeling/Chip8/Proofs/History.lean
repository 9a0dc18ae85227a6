import Chip8.Proofs.Standing

/-!
Histories of an emulator, with the cycles in them. The states in which the cycles of an act begin are listed
(`Emulator.begun`), so that a condition can be put on every cycle, also on those inside a pass
(`Emulator.Each`). What only cycles change is the interior of the machine (`Machine.interior`); timers, the clock,
the keys held, the pace, the window and the speaker surround it (`Emulator.Around`). A property of the interior
that every such cycle keeps holds all along the history (`Emulator.Carried.of_history`).
-/
namespace Chip8
variable {τ : Type}

/-- What nothing but instructions changes. -/
structure Interior where
  core : Core
  registers : Registers
  pixels : Frame
  keypad : Keypad
  waiting : Bool
  reported : List Word
  random : RandomSource
  dialect : Dialect

def Machine.interior (m : Machine τ) : Interior :=
  ⟨m.core, m.registers, m.screen.pixels, m.keypad, m.waiting, m.reported, m.random, m.dialect⟩

/-- Instructions that were not fetched, and pictures. -/
def Act.fromOutside : Act τ → Bool
  | .exec _ | .paint _ _ _ | .clear => true
  | _ => false

namespace Emulator

/-! ### What surrounds the interior -/

/-- The second state differs from the first in the surroundings only. -/
structure Around (e after : Emulator τ) : Prop where
  interior : after.machine.interior = e.machine.interior
  cycles : after.cycles = e.cycles

namespace Around
variable {e mid after : Emulator τ}

theorem trans (first : e.Around mid) (second : mid.Around after) : e.Around after :=
  ⟨second.interior.trans first.interior, second.cycles.trans first.cycles⟩

theorem poll (e : Emulator τ) (p : Poll) : e.Around (e.poll p) := by
  obtain ⟨held, closes⟩ := p
  cases held with
  | none => exact ⟨rfl, rfl⟩
  | some names => exact ⟨rfl, rfl⟩

variable [Time τ]

theorem dropBacklog (e : Emulator τ) (now : τ) : e.Around (e.dropBacklog now) := by
  obtain ⟨lastCycle, dropped⟩ := e.dropBacklog_eq now
  rw [dropped]
  exact ⟨rfl, rfl⟩

theorem syncDisplay (e : Emulator τ) (now : τ) : e.Around (e.syncDisplay now).1 := by
  have looked := e.looked_syncDisplay now
  generalize e.syncDisplay now = after at looked ⊢
  cases looked <;> exact ⟨rfl, rfl⟩

theorem idle (e : Emulator τ) : e.Around e.idle := by
  obtain ⟨clock, idled⟩ := e.idle_eq
  rw [idled]
  exact ⟨rfl, rfl⟩

/-- What follows the instructions of a pass surrounds them. -/
theorem follow (e : Emulator τ) (now : τ) : e.Around ((e.dropBacklog now).syncTimers.syncDisplay now).1 := by
  have dropped := Around.dropBacklog e now
  have ticked : (e.dropBacklog now).Around (e.dropBacklog now).syncTimers := ⟨rfl, rfl⟩
  exact dropped.trans (ticked.trans (.syncDisplay _ now))

end Around

/-- A cycle that runs through has executed the word at the counter and is counted. -/
theorem counted_of_ok {e : Emulator τ} {i : Instruction} (ran : e.step.result = .ok i) :
    i = .decode e.machine.nextWord ∧ e.step.state.cycles = e.cycles + 1 := by
  rcases e.step_cases with ⟨after, _, _, stepped⟩ | ⟨f, after, _, stepped⟩
  · rw [stepped] at ran ⊢
    exact ⟨(Except.ok.inj ran).symm, rfl⟩
  · rw [stepped] at ran
    cases ran

variable [Time τ]

/-! ### The cycles of an act -/

/-- The states in which the cycles begin that are due at a time, at most so many. A cycle that is stopped is the
    last. -/
def begunDue (now : τ) : Nat → Emulator τ → List (Emulator τ)
  | 0, _ => []
  | budget + 1, e =>
    if e.due now then
      let e := { e with lastCycle := e.lastCycle + e.interval }
      e :: match e.step.result with
        | .ok _ => begunDue now budget e.step.state
        | .error _ => []
    else []

def begunPass (e : Emulator τ) : List (Emulator τ) :=
  begunDue e.readClock.machine.clock.now maxCatchUp e.readClock

/-- The states in which the passes of the loop begin. A pass that is stopped is the last. -/
def passesLoop (polls : Nat → Poll) (first : Nat) : Nat → Emulator τ → List (Emulator τ)
  | 0, _ => []
  | passes + 1, e =>
    if e.running then
      let e := e.poll (polls first)
      e :: match e.runOnce.result with
        | .ok _ => passesLoop polls (first + 1) passes e.runOnce.state.idle
        | .error _ => []
    else []

/-- The states in which the passes of an act begin, in order. -/
def passes (e : Emulator τ) : Act τ → List (Emulator τ)
  | .runOnce => [e]
  | .run polls first passes => passesLoop polls first passes e
  | _ => []

/-- The states in which the cycles of an act begin, in order. -/
def begun (e : Emulator τ) : Act τ → List (Emulator τ)
  | .step => [e]
  | .catchUp now budget => begunDue now budget e
  | a => (e.passes a).flatMap begunPass

/-- What the passes keep, and what comes between them, the loop keeps. -/
theorem run_induction {P Q : Emulator τ → Prop} (poll : ∀ e p, P e → P (e.poll p))
    (pass : ∀ e, Q e → P e → P e.runOnce.state) (idle : ∀ e, P e → P e.idle)
    (stop : ∀ e, P e → P { e with speaker := e.speaker.stop }) (polls : Nat → Poll) (first passes : Nat)
    {e : Emulator τ} (each : ∀ p ∈ passesLoop polls first passes e, Q p) (holds : P e) :
    P (e.run polls first passes).1.state := by
  induction passes generalizing first e with
  | zero =>
    unfold run
    split
    · exact holds
    · exact stop e holds
  | succ passes ih =>
    unfold passesLoop at each
    unfold run
    by_cases running : e.running = true
    · simp only [if_pos running, List.forall_mem_cons] at each ⊢
      obtain ⟨allowed, later⟩ := each
      have passed := pass _ allowed (poll e (polls first) holds)
      split
      next ok =>
        rw [ok] at later
        exact ih (first + 1) later (idle _ passed)
      next => exact passed
    · rw [if_neg running]
      exact stop e holds

/-! ### Histories -/

/-- The states that acts lead to from a given one, each done where it may be done. -/
inductive History (may : Emulator τ → Act τ → Prop) (start : Emulator τ) : Emulator τ → Prop where
  | nil : History may start start
  | snoc {e : Emulator τ} {a : Act τ} (before : History may start e) (allowed : may e a) :
      History may start (e.act a).state

/-- Nothing comes from outside, and every cycle has the property. -/
def Each (Q : Emulator τ → Prop) (e : Emulator τ) (a : Act τ) : Prop := a.fromOutside = false ∧ ∀ c ∈ e.begun a, Q c

theorem each_step {Q : Emulator τ → Prop} {e : Emulator τ} (holds : Q e) : e.Each Q .step :=
  ⟨rfl, List.forall_mem_singleton.2 holds⟩

/-- The property does not depend on the surroundings, and a cycle with `Q` keeps it. -/
structure Carried (Q P : Emulator τ → Prop) : Prop where
  around {e after : Emulator τ} : P e → e.Around after → P after
  cycle {e : Emulator τ} : P e → Q e → P e.step.state

namespace Carried
variable {Q P : Emulator τ → Prop}

theorem catchUp (carried : Carried Q P) (now : τ) (budget : Nat) {e : Emulator τ}
    (each : ∀ c ∈ begunDue now budget e, Q c) (holds : P e) : P (Emulator.catchUp now budget e).state := by
  induction budget generalizing e with
  | zero => exact holds
  | succ budget ih =>
    unfold begunDue at each
    unfold Emulator.catchUp
    by_cases due : e.due now
    · simp only [if_pos due, List.forall_mem_cons] at each ⊢
      obtain ⟨first, rest⟩ := each
      have paced : P { e with lastCycle := e.lastCycle + e.interval } := carried.around holds ⟨rfl, rfl⟩
      have ran := carried.cycle paced first
      split
      next ok =>
        rw [ok] at rest
        exact ih rest ran
      next => exact carried.around ran ⟨rfl, rfl⟩
      next => exact ran
    · rw [if_neg due]
      exact holds

theorem runOnce (carried : Carried Q P) {e : Emulator τ} (each : ∀ c ∈ e.begunPass, Q c) (holds : P e) :
    P e.runOnce.state := by
  have read : P e.readClock := carried.around holds ⟨rfl, rfl⟩
  have ran := carried.catchUp e.readClock.machine.clock.now maxCatchUp each read
  unfold Emulator.runOnce Attempt.andThen
  simp only
  split
  · exact carried.around ran (.follow _ _)
  · exact ran

theorem run (carried : Carried Q P) (polls : Nat → Poll) (first passes : Nat) {e : Emulator τ}
    (each : ∀ p ∈ passesLoop polls first passes e, ∀ c ∈ p.begunPass, Q c) (holds : P e) :
    P (e.run polls first passes).1.state := by
  refine run_induction ?_ ?_ ?_ ?_ polls first passes each holds
  · exact fun e p holds => carried.around holds (.poll e p)
  · exact fun e each holds => carried.runOnce each holds
  · exact fun e holds => carried.around holds (.idle e)
  · exact fun e holds => carried.around holds ⟨rfl, rfl⟩

theorem act (carried : Carried Q P) {e : Emulator τ} {a : Act τ} (each : e.Each Q a) (holds : P e) :
    P (e.act a).state := by
  obtain ⟨inside, each⟩ := each
  cases a with
  | step => exact carried.cycle holds (each e List.mem_cons_self)
  | runOnce => exact carried.runOnce (fun c begins => each c (List.mem_append_left [] begins)) holds
  | run polls first passes =>
    exact carried.run polls first passes (fun p begins c inside => each c (List.mem_flatMap_of_mem begins inside)) holds
  | catchUp now budget => exact carried.catchUp now budget each holds
  | syncDisplay now => exact carried.around holds (.syncDisplay e now)
  | idle => exact carried.around holds (.idle e)
  | dropBacklog now => exact carried.around holds (.dropBacklog e now)
  | syncTimers | readClock | hold keyboard => exact carried.around holds ⟨rfl, rfl⟩
  | exec i | paint x y rows | clear => cases inside

/-- What the cycles keep holds all along a history. -/
theorem of_history (carried : Carried Q P) {start e : Emulator τ} (history : start.History (Each Q) e)
    (holds : P start) : P e := by
  induction history with
  | nil => exact holds
  | snoc _ each ih => exact carried.act each ih

end Carried

end Emulator

end Chip8
