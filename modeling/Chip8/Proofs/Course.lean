import Mathlib.Data.List.Induction
import Chip8.Proofs.History

/-!
What a list of acts does, one after the other (`Emulator.course`), and what of it is seen and heard. The cycles of a
pass show nothing and play nothing (`Emulator.unseen_catchUp`): window and speaker have their turn when all of them ran,
and none if one is stopped by a fault that is not the end of the program (`Emulator.runOnce_cases`).
-/
namespace Chip8
variable {τ : Type}

namespace Emulator

/-! ### Unseen and unheard -/

/-- On the way to the second state nothing was shown and nothing was played. -/
structure Unseen (e after : Emulator τ) : Prop where
  window : after.window = e.window
  frameCount : after.frameCount = e.frameCount
  lastRefresh : after.lastRefresh = e.lastRefresh
  speaker : after.speaker = e.speaker

namespace Unseen
variable {e mid after : Emulator τ}

theorem trans (first : e.Unseen mid) (second : mid.Unseen after) : e.Unseen after :=
  ⟨second.window.trans first.window, second.frameCount.trans first.frameCount,
    second.lastRefresh.trans first.lastRefresh, second.speaker.trans first.speaker⟩

theorem step (e : Emulator τ) : e.Unseen e.step.state := by
  rcases e.step_cases with ⟨after, _, _, stepped⟩ | ⟨f, after, _, stepped⟩
  · rw [stepped]
    exact ⟨rfl, rfl, rfl, rfl⟩
  · rw [stepped]
    exact ⟨rfl, rfl, rfl, rfl⟩

theorem exec (e : Emulator τ) (i : Instruction) : e.Unseen (e.exec i).state := by
  simp only [Emulator.exec]
  split
  · exact ⟨rfl, rfl, rfl, rfl⟩
  · exact ⟨rfl, rfl, rfl, rfl⟩

variable [Time τ]

theorem idle (e : Emulator τ) : e.Unseen e.idle := by
  obtain ⟨clock, idled⟩ := e.idle_eq
  rw [idled]
  exact ⟨rfl, rfl, rfl, rfl⟩

theorem dropBacklog (e : Emulator τ) (now : τ) : e.Unseen (e.dropBacklog now) := by
  obtain ⟨lastCycle, dropped⟩ := e.dropBacklog_eq now
  rw [dropped]
  exact ⟨rfl, rfl, rfl, rfl⟩

theorem catchUp (now : τ) (budget : Nat) (e : Emulator τ) : e.Unseen (Emulator.catchUp now budget e).state := by
  induction budget generalizing e with
  | zero => exact ⟨rfl, rfl, rfl, rfl⟩
  | succ budget ih =>
    unfold Emulator.catchUp
    split
    case isFalse => exact ⟨rfl, rfl, rfl, rfl⟩
    case isTrue =>
      have paced : e.Unseen { e with lastCycle := e.lastCycle + e.interval } := ⟨rfl, rfl, rfl, rfl⟩
      have stepped := paced.trans (.step _)
      dsimp only
      split
      · exact stepped.trans (ih _)
      · exact stepped.trans ⟨rfl, rfl, rfl, rfl⟩
      · exact stepped

end Unseen

variable [Time τ]

/-! ### Passes -/

/-- What the cycles of the next pass lead to. -/
def cycled (e : Emulator τ) : Attempt (Emulator τ) Unit := catchUp e.readClock.machine.clock.now maxCatchUp e.readClock

/-- What a pass does once its cycles ran. -/
theorem runOnce_eq (e : Emulator τ) : e.runOnce = e.cycled.andThen fun ran () =>
    let after := ((ran.dropBacklog e.readClock.machine.clock.now).syncTimers.syncDisplay
      e.readClock.machine.clock.now).1
    .done after (!after.finished) := rfl

theorem finished_follow (e : Emulator τ) (now : τ) :
    ((e.dropBacklog now).syncTimers.syncDisplay now).1.finished = e.finished := by
  obtain ⟨lastCycle, dropped⟩ := e.dropBacklog_eq now
  rw [finished_syncDisplay, dropped]
  rfl

/-- A pass whose cycles ran comes to its end. -/
theorem runOnce_of_done {e ran : Emulator τ} (cycled : e.cycled = .done ran ()) :
    e.runOnce = .done ((ran.dropBacklog e.readClock.machine.clock.now).syncTimers.syncDisplay
      e.readClock.machine.clock.now).1 (!ran.finished) := by
  rw [runOnce_eq, cycled, Attempt.andThen_done]
  exact congrArg (fun finished => Attempt.done _ (!finished)) (finished_follow ran _)

theorem unseen_cycled (e : Emulator τ) : e.Unseen e.cycled.state := by
  have read : e.Unseen e.readClock := ⟨rfl, rfl, rfl, rfl⟩
  exact read.trans (.catchUp _ _ _)

/-- A cycle that finds the program finished is the last of its pass. -/
theorem catchUp_of_finished {e : Emulator τ} {now : τ} {pc : Int} (due : e.due now)
    (stops : { e with lastCycle := e.lastCycle + e.interval }.step.result = .error (.finished pc)) (budget : Nat) :
    begunDue now (budget + 1) e = [{ e with lastCycle := e.lastCycle + e.interval }] ∧
    ∃ journal, catchUp now (budget + 1) e =
      .done { { e with lastCycle := e.lastCycle + e.interval }.step.state with finished := true, journal } () := by
  unfold begunDue catchUp
  rw [if_pos due, if_pos due]
  dsimp only
  rw [stops]
  exact ⟨rfl, _, rfl⟩

/-- The end of the program does not stop the cycles of a pass. -/
theorem abnormal_of_catchUp {now : τ} {budget : Nat} {e : Emulator τ} {f : Fault}
    (stopped : (catchUp now budget e).result = .error f) : f.abnormal = true := by
  induction budget generalizing e with
  | zero => cases stopped
  | succ budget ih =>
    unfold catchUp at stopped
    split at stopped
    case isFalse => cases stopped
    case isTrue =>
      dsimp only at stopped
      split at stopped
      · exact ih stopped
      · cases stopped
      next g other _ =>
        cases stopped
        cases f with
        | finished pc => exact absurd rfl (other pc)
        | stackUnderflow | stackOverflow => rfl

/-- A pass comes to its end, or a fault in one of its cycles goes through before window and speaker have their turn. -/
theorem runOnce_cases (e : Emulator τ) :
    (∃ f, f.abnormal = true ∧ e.runOnce = .stopped e.cycled.state f) ∨
    (e.cycled = .done e.cycled.state () ∧
      ∃ goes, e.runOnce = .done ((e.cycled.state.dropBacklog e.readClock.machine.clock.now).syncTimers.syncDisplay
        e.readClock.machine.clock.now).1 goes) := by
  rw [runOnce_eq]
  cases ran : e.cycled with | mk after result =>
    cases result with
    | ok _ => exact .inr ⟨rfl, _, rfl⟩
    | error f =>
      have stopped : e.cycled.result = .error f := by rw [ran]
      exact .inl ⟨f, abnormal_of_catchUp stopped, rfl⟩

/-! ### The loop -/

section
variable {e after : Emulator τ} (polls : Nat → Poll) (first : Nat)

theorem run_of_done {goes : Bool} (running : e.running = true)
    (passed : (e.poll (polls first)).runOnce = .done after goes) (passes : Nat) :
    e.run polls first (passes + 1) = after.idle.run polls (first + 1) passes := by
  rw [run, if_pos running]
  simp only [passed, Attempt.result_done, Attempt.state_done]

theorem run_of_stopped {f : Fault} (running : e.running = true)
    (passed : (e.poll (polls first)).runOnce = .stopped after f) (passes : Nat) :
    e.run polls first (passes + 1) = (.stopped after f, first + 1) := by
  rw [run, if_pos running]
  simp only [passed, Attempt.result_stopped, Attempt.state_stopped]

theorem run_of_ended (halted : ¬ e.running = true) (passes : Nat) :
    e.run polls first passes = (.done { e with speaker := e.speaker.stop } (some e.finished), first) := by
  unfold Emulator.run
  rw [if_neg halted]

theorem passesLoop_of_done {goes : Bool} (running : e.running = true)
    (passed : (e.poll (polls first)).runOnce = .done after goes) (passes : Nat) :
    passesLoop polls first (passes + 1) e = e.poll (polls first) :: passesLoop polls (first + 1) passes after.idle := by
  rw [passesLoop, if_pos running]
  simp only [passed, Attempt.result_done, Attempt.state_done]

theorem passesLoop_of_stopped {f : Fault} (running : e.running = true)
    (passed : (e.poll (polls first)).runOnce = .stopped after f) (passes : Nat) :
    passesLoop polls first (passes + 1) e = [e.poll (polls first)] := by
  rw [passesLoop, if_pos running]
  simp only [passed, Attempt.result_stopped]

theorem passesLoop_of_ended (halted : ¬ e.running = true) (passes : Nat) : passesLoop polls first passes e = [] := by
  cases passes with
  | zero => rfl
  | succ passes => rw [passesLoop, if_neg halted]

end

/-! ### Courses -/

/-- The state that a list of acts leads to. -/
def actAll (e : Emulator τ) (acts : List (Act τ)) : Emulator τ := acts.foldl (fun e a => (e.act a).state) e

/-- The acts of a list, each with the state that it begins in. -/
def course (e : Emulator τ) : List (Act τ) → List (Emulator τ × Act τ)
  | [] => []
  | a :: acts => (e, a) :: (e.act a).state.course acts

theorem actAll_concat (e : Emulator τ) (acts : List (Act τ)) (a : Act τ) :
    e.actAll (acts ++ [a]) = ((e.actAll acts).act a).state := List.foldl_append

theorem mem_of_mem_course {e : Emulator τ} {acts : List (Act τ)} {p : Emulator τ × Act τ} (mem : p ∈ e.course acts) :
    p.2 ∈ acts := by
  induction acts generalizing e with
  | nil => cases mem
  | cons first acts ih =>
    rcases List.mem_cons.1 mem with rfl | later
    · exact List.mem_cons_self
    · exact List.mem_cons_of_mem _ (ih later)

theorem course_concat (e : Emulator τ) (acts : List (Act τ)) (a : Act τ) :
    e.course (acts ++ [a]) = e.course acts ++ [(e.actAll acts, a)] := by
  induction acts generalizing e with
  | nil => rfl
  | cons first acts ih => exact congrArg ((e, first) :: ·) (ih (e.act first).state)

/-- What the acts of a course keep holds at its end. -/
theorem course_induction {P : List (Act τ) → Emulator τ → Prop} {Q : Emulator τ → Act τ → Prop} {start : Emulator τ}
    (nil : P [] start)
    (concat : ∀ acts a, P acts (start.actAll acts) → Q (start.actAll acts) a →
      P (acts ++ [a]) ((start.actAll acts).act a).state)
    {acts : List (Act τ)} (each : ∀ p ∈ start.course acts, Q p.1 p.2) : P acts (start.actAll acts) := by
  induction acts using List.reverseRecOn with
  | nil => exact nil
  | append_singleton acts a ih =>
    rw [course_concat, List.forall_mem_append, List.forall_mem_singleton] at each
    rw [actAll_concat]
    exact concat acts a (ih each.1) each.2

end Emulator

end Chip8
