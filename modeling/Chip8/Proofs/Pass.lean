import Chip8.Proofs.Countdown
import Chip8.Proofs.Course

/-!
One pass, attempt by attempt. Each cycle is given its time before it is attempted (`Emulator.charged`), and the attempts
of a pass go on until their number is used up, none is due any more, or one is stopped (`Emulator.Chase`). Only the
number bounds them: nothing is asked of the interval, which may be negative or lost in rounding. Timers and display
follow once, however the attempts came to their end, unless a fault goes through (`Emulator.pass_bounded`): what is due
then goes on by one step (`Timer.TickedOnce`, `Emulator.LookedOnce`).
-/
namespace Chip8
variable {τ : Type}

namespace Emulator

/-- The cycle that begins here meets the end of the program. -/
def meetsEnd (c : Emulator τ) : Bool :=
  match c.step.result with
  | .error (.finished _) => true
  | _ => false

theorem finished_step (c : Emulator τ) : c.step.state.finished = c.finished := by
  rcases c.step_cases with ⟨after, _, _, stepped⟩ | ⟨f, after, _, stepped⟩
  · rw [stepped]; rfl
  · rw [stepped]; rfl

/-- A cycle is counted exactly if it runs through. -/
theorem cycles_step (c : Emulator τ) : c.step.state.cycles = c.cycles + if c.step.result.isOk then 1 else 0 := by
  rcases c.step_cases with ⟨after, _, _, stepped⟩ | ⟨f, after, _, stepped⟩
  · rw [stepped]; rfl
  · rw [stepped]; rfl

/-- The last of the cycles is stopped by the fault. -/
def StoppedBy (begun : List (Emulator τ)) (f : Fault) : Prop := ∃ c, begun.getLast? = some c ∧ c.step.result = .error f

theorem not_stoppedBy_nil (f : Fault) : ¬ StoppedBy ([] : List (Emulator τ)) f := by
  rintro ⟨_, impossible, _⟩
  cases impossible

theorem stoppedBy_singleton {c : Emulator τ} {f : Fault} : StoppedBy [c] f ↔ c.step.result = .error f := by
  constructor
  · rintro ⟨_, ⟨⟩, stops⟩
    exact stops
  · intro stops
    exact ⟨c, rfl, stops⟩

/-- A cycle that runs through in front makes no difference. -/
theorem stoppedBy_cons {c : Emulator τ} {i : Instruction} (through : c.step.result = .ok i)
    {begun : List (Emulator τ)} {f : Fault} : StoppedBy (c :: begun) f ↔ StoppedBy begun f := by
  cases begun with
  | nil =>
    rw [stoppedBy_singleton, through]
    exact iff_of_false (fun impossible => nomatch impossible) (not_stoppedBy_nil f)
  | cons next begun => rw [StoppedBy, StoppedBy, List.getLast?_cons_cons]

variable [Time τ]

/-- The emulator as its next cycle begins, which is given its time first. -/
def charged (e : Emulator τ) : Emulator τ := { e with lastCycle := e.lastCycle + e.interval }

/-- Cycles in a row, each due when it is attempted, and the state that the last of them leaves. -/
def InRow (now : τ) (e : Emulator τ) : List (Emulator τ) → Emulator τ → Prop
  | [], left => left = e
  | c :: begun, left => e.due now ∧ c = e.charged ∧ c.step.state.InRow now begun left

/-- How the attempts at cycles go that are due at a time, at most so many: the states in which they begin, and what they
    come to. They are used up, nothing is due, the first of them runs through, it meets the end of the program, or
    another fault stops it. -/
inductive Chase (now : τ) : Nat → Emulator τ → List (Emulator τ) → Attempt (Emulator τ) Unit → Prop where
  | usedUp (e : Emulator τ) : Chase now 0 e [] (.done e ())
  | caughtUp {budget : Nat} {e : Emulator τ} (ahead : ¬ e.due now) : Chase now (budget + 1) e [] (.done e ())
  | ran {budget : Nat} {e : Emulator τ} {i : Instruction} {begun : List (Emulator τ)} {out : Attempt (Emulator τ) Unit}
      (due : e.due now) (through : e.charged.step.result = .ok i)
      (rest : Chase now budget e.charged.step.state begun out) : Chase now (budget + 1) e (e.charged :: begun) out
  | ended {budget : Nat} {e : Emulator τ} {pc : Int} (journal : Journal) (due : e.due now)
      (stops : e.charged.step.result = .error (.finished pc)) :
      Chase now (budget + 1) e [e.charged] (.done { e.charged.step.state with finished := true, journal } ())
  | failed {budget : Nat} {e : Emulator τ} {f : Fault} (due : e.due now) (stops : e.charged.step.result = .error f)
      (abnormal : f.abnormal = true) : Chase now (budget + 1) e [e.charged] (.stopped e.charged.step.state f)

theorem chase_catchUp (now : τ) (budget : Nat) (e : Emulator τ) :
    Chase now budget e (begunDue now budget e) (catchUp now budget e) := by
  -- On the number of attempts left: the time given to a cycle need not bring it any closer to `now`.
  induction budget generalizing e with
  | zero => exact .usedUp e
  | succ budget ih =>
    unfold begunDue catchUp
    by_cases due : e.due now
    · rw [if_pos due, if_pos due]
      have begins : ({ e with lastCycle := e.lastCycle + e.interval } : Emulator τ) = e.charged := rfl
      rw [begins]
      dsimp only
      cases stepped : e.charged.step.result with
      | ok i => exact .ran due stepped (ih _)
      | error f =>
        cases f with
        | finished pc => exact .ended _ due stepped
        | stackUnderflow | stackOverflow addr => exact .failed due stepped rfl
    · rw [if_neg due, if_neg due]
      exact .caughtUp due

namespace Chase
variable {now : τ} {budget : Nat} {e : Emulator τ} {begun : List (Emulator τ)} {out : Attempt (Emulator τ) Unit}

theorem length_le (chase : Chase now budget e begun out) : begun.length ≤ budget := by
  induction chase with
  | usedUp | caughtUp => exact Nat.zero_le _
  | ran _ _ _ ih => exact Nat.succ_le_succ ih
  | ended | failed => exact Nat.succ_le_succ (Nat.zero_le _)

/-- Only the last attempt may be stopped. -/
theorem ran_dropLast (chase : Chase now budget e begun out) : ∀ c ∈ begun.dropLast, ∃ i, c.step.result = .ok i := by
  induction chase with
  | usedUp | caughtUp | ended | failed =>
    intro c among
    cases among
  | @ran _ e i begun _ _ through _ ih =>
    intro c among
    cases begun with
    | nil => cases among
    | cons next begun =>
      rcases List.mem_cons.1 among with rfl | later
      · exact ⟨i, through⟩
      · exact ih c later

/-- Every attempt that runs through is counted, and no other. -/
theorem cycles_eq (chase : Chase now budget e begun out) :
    out.state.cycles = e.cycles + begun.countP fun c => c.step.result.isOk := by
  induction chase with
  | usedUp | caughtUp => rfl
  | @ran _ e _ begun _ _ through _ ih =>
    have counted := e.charged.cycles_step
    rw [ih, counted, List.countP_cons, Nat.add_assoc, Nat.add_comm (List.countP _ begun)]
    rfl
  | @ended _ e _ _ _ _ | @failed _ e _ _ _ _ =>
    have counted := e.charged.cycles_step
    rw [List.countP_singleton]
    exact counted

/-- The attempts are made in a row. The last of them may be stopped by a fault that goes through; else the pass goes on
    with what they left, and with a note if the end of the program was met. -/
theorem outcome (chase : Chase now budget e begun out) : ∃ left, e.InRow now begun left ∧
    ((∃ f, StoppedBy begun f ∧ f.abnormal = true ∧ out = .stopped left f) ∨
      (∀ f, StoppedBy begun f → f.abnormal = false) ∧
        ∃ journal, out = .done { left with finished := e.finished || begun.any meetsEnd, journal } ()) := by
  induction chase with
  | usedUp e | @caughtUp _ e _ =>
    refine ⟨e, rfl, .inr ⟨?_, e.journal, ?_⟩⟩
    · intro f stopped
      exact absurd stopped (not_stoppedBy_nil f)
    · rw [List.any_nil, Bool.or_false]
  | @ran _ e i begun out due through _ ih =>
    obtain ⟨left, row, reached⟩ := ih
    refine ⟨left, ⟨due, rfl, row⟩, ?_⟩
    simp only [stoppedBy_cons through]
    refine reached.imp_right ?_
    rintro ⟨harmless, journal, reached⟩
    have goes : e.charged.meetsEnd = false := by rw [meetsEnd, through]
    have unfinished : e.charged.step.state.finished = e.finished := e.charged.finished_step
    rw [List.any_cons, goes, Bool.false_or, ← unfinished]
    exact ⟨harmless, journal, reached⟩
  | @ended _ e pc journal due stops =>
    refine ⟨_, ⟨due, rfl, rfl⟩, .inr ⟨?_, journal, ?_⟩⟩
    · intro f stopped
      rw [stoppedBy_singleton, stops] at stopped
      cases stopped
      rfl
    · have ends : e.charged.meetsEnd = true := by rw [meetsEnd, stops]
      rw [List.any_cons, ends, Bool.true_or, Bool.or_true]
  | @failed _ e f due stops abnormal =>
    exact ⟨_, ⟨due, rfl, rfl⟩, .inl ⟨f, stoppedBy_singleton.2 stops, abnormal, rfl⟩⟩

/-- The attempts stop early only if one is stopped or none is due any more. -/
theorem halts (chase : Chase now budget e begun out) :
    begun.length = budget ∨ (∃ f, StoppedBy begun f) ∨ ¬ out.state.due now := by
  induction chase with
  | usedUp => exact .inl rfl
  | caughtUp ahead => exact .inr (.inr ahead)
  | ran _ through _ ih =>
    simp only [stoppedBy_cons through]
    exact ih.imp_left (congrArg Nat.succ)
  | ended _ _ stops => exact .inr (.inl ⟨_, stoppedBy_singleton.2 stops⟩)
  | failed _ stops _ => exact .inr (.inl ⟨_, stoppedBy_singleton.2 stops⟩)

end Chase

/-! ### What follows the attempts -/

/-- What one look at the display leaves. Too early it changes nothing; else the next sixtieth begins with it, the screen
    is no longer dirty, and a picture that had been touched and is not the one shown has become the latest frame. -/
structure LookedOnce (e : Emulator τ) (now : τ) (after : Emulator τ) : Prop where
  early : now - e.lastRefresh < Time.sixtieth → after.lastRefresh = e.lastRefresh ∧
    after.machine.screen = e.machine.screen ∧ after.window.frames = e.window.frames
  due : ¬ now - e.lastRefresh < Time.sixtieth → after.lastRefresh = now ∧
    after.machine.screen = { e.machine.screen with dirty := false } ∧
    after.window.frames = if e.machine.screen.dirty = true ∧ e.shown ≠ some e.machine.screen.pixels then
      e.window.frames.push e.machine.screen.pixels else e.window.frames

theorem lookedOnce_syncDisplay (e : Emulator τ) (now : τ) : e.LookedOnce now (e.syncDisplay now).1 := by
  have looked := e.looked_syncDisplay now
  generalize e.syncDisplay now = after at looked ⊢
  cases looked with
  | early early => exact ⟨fun _ => ⟨rfl, rfl, rfl⟩, fun due => absurd early due⟩
  | clean due clean =>
    refine ⟨fun early => absurd early due, fun _ => ⟨rfl, by rw [← clean], (if_neg ?_).symm⟩⟩
    rintro ⟨dirty, _⟩
    exact Bool.false_ne_true (clean.symm.trans dirty)
  | same due _ same =>
    exact ⟨fun early => absurd early due, fun _ => ⟨rfl, rfl, (if_neg fun touched => touched.2 same).symm⟩⟩
  | presented due dirty other =>
    exact ⟨fun early => absurd early due, fun _ => ⟨rfl, rfl, (if_pos ⟨dirty, other⟩).symm⟩⟩

/-- What is done before the look has no part in the display. -/
theorem lookedOnce_follow (e : Emulator τ) (now : τ) :
    e.LookedOnce now ((e.dropBacklog now).syncTimers.syncDisplay now).1 := by
  have looked := (e.dropBacklog now).syncTimers.lookedOnce_syncDisplay now
  generalize ((e.dropBacklog now).syncTimers.syncDisplay now).1 = after at looked ⊢
  obtain ⟨lastCycle, dropped⟩ := e.dropBacklog_eq now
  rw [dropped] at looked
  exact ⟨looked.early, looked.due⟩

/-- What follows the attempts of a pass: each timer ticks once, at a reading of its own. -/
theorem ticked_follow (e : Emulator τ) (now : τ) :
    let after := ((e.dropBacklog now).syncTimers.syncDisplay now).1
    after.machine.delay = (e.machine.delay.tick e.machine.clock.read.now).1 ∧
    after.machine.sound = (e.machine.sound.tick e.machine.clock.read.read.now).1 ∧
    after.machine.clock = e.machine.clock.read.read := by
  intro after
  obtain ⟨lastCycle, dropped⟩ := e.dropBacklog_eq now
  obtain ⟨dirty, shown⟩ := (e.dropBacklog now).syncTimers.machine_syncDisplay now
  simp only [after, shown]
  rw [dropped]
  exact ⟨rfl, rfl, rfl⟩

theorem tickedOnce_follow (e : Emulator τ) (now : τ) :
    let after := ((e.dropBacklog now).syncTimers.syncDisplay now).1
    e.machine.delay.TickedOnce e.machine.clock.read.now after.machine.delay ∧
    e.machine.sound.TickedOnce e.machine.clock.read.read.now after.machine.sound := by
  intro after
  obtain ⟨delay, sound, _⟩ := e.ticked_follow now
  rw [delay, sound]
  exact ⟨Timer.tickedOnce_tick _ _, Timer.tickedOnce_tick _ _⟩

/-- A pass is bounded and leaves nothing out, whatever the interval and the clock. It makes ten attempts at most, in a
    row, none after one that was stopped, and no fewer unless one was stopped or none is due any more; the cycles that
    ran through are counted. A fault in the stack goes through. In every other case, also where the last attempt met the
    end of the program, the delay timer and the sound timer tick once, in this order, the display is looked at once, as
    of the reading that began the pass, and the value tells whether the program has finished. By one tick a count above
    zero that is due goes down by one, and a look that is due moves the latest refresh to that reading. -/
theorem pass_bounded (e : Emulator τ) :
    let now := e.machine.clock.read.now
    let begun := e.begunPass
    begun.length ≤ 10 ∧ (∀ c ∈ begun.dropLast, ∃ i, c.step.result = .ok i) ∧
    e.runOnce.state.cycles = e.cycles + begun.countP (fun c => c.step.result.isOk) ∧
    ∃ left, e.readClock.InRow now begun left ∧
      (begun.length = 10 ∨ (∃ f, StoppedBy begun f) ∨ ¬ left.due now) ∧
      ((∃ f, StoppedBy begun f ∧ f.abnormal = true ∧ e.runOnce = .stopped left f) ∨
        (∀ f, StoppedBy begun f → f.abnormal = false) ∧
          ∃ journal,
            let ran : Emulator τ := { left with finished := e.finished || begun.any meetsEnd, journal }
            let after := ((ran.dropBacklog now).syncTimers.syncDisplay now).1
            e.runOnce = .done after (!after.finished) ∧ after.finished = (e.finished || begun.any meetsEnd) ∧
            after.machine.delay = (left.machine.delay.tick left.machine.clock.read.now).1 ∧
            after.machine.sound = (left.machine.sound.tick left.machine.clock.read.read.now).1 ∧
            after.machine.clock = left.machine.clock.read.read ∧
            left.machine.delay.TickedOnce left.machine.clock.read.now after.machine.delay ∧
            left.machine.sound.TickedOnce left.machine.clock.read.read.now after.machine.sound ∧
            ran.LookedOnce now after) := by
  intro now begun
  have chase : Chase now maxCatchUp e.readClock begun e.cycled := chase_catchUp now maxCatchUp e.readClock
  have counted := chase.cycles_eq
  have halts := chase.halts
  obtain ⟨left, row, reached⟩ := chase.outcome
  rcases reached with ⟨f, stops, abnormal, reached⟩ | ⟨harmless, journal, reached⟩
  · have stopped : e.runOnce = .stopped left f := by rw [runOnce_eq, reached, Attempt.andThen_stopped]
    rw [reached] at counted
    refine ⟨chase.length_le, chase.ran_dropLast, ?_, left, row, .inr (.inl ⟨f, stops⟩),
      .inl ⟨f, stops, abnormal, stopped⟩⟩
    rw [stopped]
    exact counted
  · let ran : Emulator τ := { left with finished := e.finished || begun.any meetsEnd, journal }
    let after := ((ran.dropBacklog now).syncTimers.syncDisplay now).1
    have done : e.runOnce = .done after (!after.finished) := by
      rw [runOnce_eq, reached, Attempt.andThen_done]
      rfl
    have followed : ran.Around after := .follow ran now
    obtain ⟨delay, sound, clock⟩ := ran.ticked_follow now
    obtain ⟨delayed, sounded⟩ := ran.tickedOnce_follow now
    rw [reached] at counted halts
    refine ⟨chase.length_le, chase.ran_dropLast, ?_, left, row, halts, .inr ⟨harmless, journal, done,
      ran.finished_follow now, delay, sound, clock, delayed, sounded, ran.lookedOnce_follow now⟩⟩
    rw [done, Attempt.state_done, followed.cycles]
    exact counted

end Emulator

end Chip8
