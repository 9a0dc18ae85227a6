import Chip8.Proofs.Course
import Chip8.Proofs.Faults
import Chip8.Proofs.Seclusion

/-!
Finishing is final. A cycle that finds the program finished leaves the counter behind its end
(`Emulator.beyond_of_finished`), and from there every attempt at a cycle finds the same and moves nothing but the
counter (`Emulator.step_of_beyond`). A pass makes one attempt at most, and the timers and the display go on around it
(`Emulator.runOnce_of_beyond`). So whatever is done to the emulator from then on, only the attempts can be told from
what it holds (`Emulator.finished_for_good`).
-/
namespace Chip8
variable {τ : Type}

theorem Machine.ahead_ahead (m : Machine τ) (a b : Int) : (m.ahead a).ahead b = m.ahead (a + b) := by
  simp only [ahead, Int.add_assoc]

namespace Emulator

/-- The counter has passed the end of the program. -/
def Beyond (e : Emulator τ) : Prop := e.machine.core.pc.limit < e.machine.core.pc.addr

/-- So many attempts at a cycle have moved the counter by two bytes each, and nothing else has changed but the
    surroundings. -/
structure Rests (start : Emulator τ) (attempts : Nat) (e : Emulator τ) : Prop where
  interior : e.machine.interior = (start.machine.ahead (2 * attempts)).interior
  cycles : e.cycles = start.cycles

variable {e mid after : Emulator τ} {n k : Nat}

theorem Around.rests (around : e.Around after) : e.Rests 0 after where
  interior := by
    rw [around.interior]
    simp [Machine.ahead]
  cycles := around.cycles

theorem Rests.trans (first : e.Rests n mid) (second : mid.Rests k after) : e.Rests (n + k) after where
  interior := by
    have moved := Machine.interior_ahead first.interior (2 * k)
    rw [second.interior, moved, Machine.ahead_ahead, ← Int.mul_add, Int.natCast_add]
  cycles := second.cycles.trans first.cycles

theorem Rests.beyond (rests : e.Rests n after) (beyond : e.Beyond) : after.Beyond := by
  have core := Machine.core_eq_of_interior rests.interior
  unfold Beyond at beyond ⊢
  rw [core, Machine.core_ahead]
  simp only
  omega

/-! ### Attempts behind the end -/

theorem step_of_beyond (beyond : e.Beyond) :
    e.step = .stopped (e.withMachine (e.machine.ahead 2)) (.finished (e.machine.core.pc.addr + 2)) := by
  unfold Beyond at beyond
  exact step_of_lt (by omega)

theorem rests_step (beyond : e.Beyond) : e.Rests 1 e.step.state := by
  rw [step_of_beyond beyond]
  exact ⟨rfl, rfl⟩

/-- A cycle that finds the program finished leaves the counter behind its end. -/
theorem beyond_of_finished {pc : Int} (meets : e.step.result = .error (.finished pc)) : e.step.state.Beyond := by
  obtain ⟨after, fails⟩ := result_step_eq_error_iff.1 meets
  rw [step_of_fails fails]
  cases fails with
  | pastEnd beyond => exact beyond
  | skipped room word met beyond =>
    show ((e.machine.tested _).ahead 4).core.pc.limit < ((e.machine.tested _).ahead 4).core.pc.addr
    rw [Machine.core_ahead, Machine.core_tested]
    exact beyond

variable [Time τ]

/-! ### Passes behind the end -/

/-- What becomes of an emulator behind the end when these cycles are attempted: there is one of them at most, nothing
    but the counter moves, and the program has finished then if it had before or if there was an attempt. -/
structure Attempted (e : Emulator τ) (begun : List (Emulator τ)) (after : Emulator τ) : Prop where
  length_le : begun.length ≤ 1
  beyond : ∀ c ∈ begun, c.Beyond
  rests : e.Rests begun.length after
  finished_iff : after.finished = true ↔ e.finished = true ∨ begun ≠ []

theorem catchUp_of_beyond (beyond : e.Beyond) (now : τ) (budget : Nat) :
    ∃ ran, catchUp now budget e = .done ran () ∧ e.Attempted (begunDue now budget e) ran := by
  have none : e.Attempted [] e :=
    ⟨Nat.zero_le 1, List.forall_mem_nil _, Around.rests ⟨rfl, rfl⟩, .inl, fun any => any.resolve_right (absurd rfl)⟩
  cases budget with
  | zero => exact ⟨e, rfl, none⟩
  | succ budget =>
    by_cases due : e.due now
    · have paid : e.Around { e with lastCycle := e.lastCycle + e.interval } := ⟨rfl, rfl⟩
      have far := paid.rests.beyond beyond
      obtain ⟨begun, journal, caught⟩ := catchUp_of_finished due (congrArg Attempt.result (step_of_beyond far)) budget
      obtain ⟨interior, cycles⟩ := paid.rests.trans (rests_step far)
      rw [begun]
      refine ⟨_, caught, Nat.le_refl 1, List.forall_mem_singleton.2 far, ⟨interior, cycles⟩, ?_⟩
      exact ⟨fun _ => .inr (List.cons_ne_nil _ _), fun _ => rfl⟩
    · rw [begunDue, catchUp, if_neg due, if_neg due]
      exact ⟨e, rfl, none⟩

/-- A pass behind the end comes to its end, and tells that the program has finished once it has. -/
theorem runOnce_of_beyond (beyond : e.Beyond) :
    ∃ after, e.runOnce = .done after (!after.finished) ∧ e.Attempted e.begunPass after := by
  let now := e.readClock.machine.clock.now
  have read : e.Around e.readClock := ⟨rfl, rfl⟩
  obtain ⟨ran, caught, few, far, rests, finished⟩ := catchUp_of_beyond (read.rests.beyond beyond) now maxCatchUp
  have passed := runOnce_of_done caught
  have same := ran.finished_follow now
  rw [← same] at passed
  have followed := rests.trans (Around.follow ran now).rests
  exact ⟨_, passed, few, far, ⟨followed.interior, followed.cycles⟩, by rw [same]; exact finished⟩

theorem rests_run (polls : Nat → Poll) (first passes : Nat) (beyond : e.Beyond) :
    e.Rests ((passesLoop polls first passes e).flatMap begunPass).length (e.run polls first passes).1.state ∧
      ∀ q ∈ passesLoop polls first passes e, q.Beyond := by
  induction passes generalizing first e with
  | zero =>
    refine ⟨?_, List.forall_mem_nil _⟩
    unfold run
    split
    · exact Around.rests ⟨rfl, rfl⟩
    · exact Around.rests ⟨rfl, rfl⟩
  | succ passes ih =>
    by_cases running : e.running = true
    · -- The attempts of this pass come first, then those of the rest of the loop.
      have polled := (Around.poll e (polls first)).rests
      obtain ⟨after, passed, attempted⟩ := runOnce_of_beyond (polled.beyond beyond)
      have idled := (polled.trans attempted.rests).trans (Around.idle after).rests
      obtain ⟨later, others⟩ := ih (first + 1) (idled.beyond beyond)
      rw [run_of_done polls first running passed, passesLoop_of_done polls first running passed, List.flatMap_cons,
        List.length_append, List.forall_mem_cons]
      have whole := idled.trans later
      rw [Nat.zero_add, Nat.add_zero] at whole
      exact ⟨whole, polled.beyond beyond, others⟩
    · rw [run_of_ended polls first running, passesLoop_of_ended polls first running]
      exact ⟨Around.rests ⟨rfl, rfl⟩, List.forall_mem_nil _⟩

/-! ### Acts behind the end -/

theorem begun_runOnce (e : Emulator τ) : e.begun .runOnce = e.begunPass := List.flatMap_singleton ..

/-- Whatever is done behind the end, the passes and the cycles in it begin behind the end. -/
theorem rests_act {a : Act τ} (beyond : e.Beyond) (inside : a.fromOutside = false) :
    e.Rests (e.begun a).length (e.act a).state ∧ (∀ q ∈ e.passes a, q.Beyond) ∧ ∀ c ∈ e.begun a, c.Beyond := by
  have around {after : Emulator τ} (around : e.Around after) :
      e.Rests 0 after ∧ (∀ q ∈ ([] : List (Emulator τ)), q.Beyond) ∧ ∀ c ∈ ([] : List (Emulator τ)), c.Beyond :=
    ⟨around.rests, List.forall_mem_nil _, List.forall_mem_nil _⟩
  cases a with
  | step => exact ⟨rests_step beyond, List.forall_mem_nil _, List.forall_mem_singleton.2 beyond⟩
  | catchUp now budget =>
    obtain ⟨ran, caught, attempted⟩ := catchUp_of_beyond beyond now budget
    exact ⟨by rw [act, caught]; exact attempted.rests, List.forall_mem_nil _, attempted.beyond⟩
  | runOnce =>
    obtain ⟨after, passed, attempted⟩ := runOnce_of_beyond beyond
    rw [begun_runOnce, act, passed]
    exact ⟨attempted.rests, List.forall_mem_singleton.2 beyond, attempted.beyond⟩
  | run polls first passes =>
    obtain ⟨rests, far⟩ := rests_run polls first passes beyond
    refine ⟨rests, far, fun c begins => ?_⟩
    obtain ⟨q, among, begins⟩ := List.mem_flatMap.1 begins
    obtain ⟨_, _, attempted⟩ := runOnce_of_beyond (far q among)
    exact attempted.beyond c begins
  | syncDisplay now => exact around (.syncDisplay e now)
  | idle => exact around (.idle e)
  | dropBacklog now => exact around (.dropBacklog e now)
  | syncTimers | readClock | hold keyboard => exact around ⟨rfl, rfl⟩
  | exec i | paint x y rows | clear => cases inside

/-- The states in which the cycles of a course begin, in order. -/
def attempts (start : Emulator τ) (acts : List (Act τ)) : List (Emulator τ) :=
  (start.course acts).flatMap fun p => p.1.begun p.2

theorem rests_course {start : Emulator τ} {acts : List (Act τ)} (beyond : start.Beyond)
    (inside : ∀ a ∈ acts, a.fromOutside = false) :
    start.Rests (start.attempts acts).length (start.actAll acts) ∧ ∀ p ∈ start.course acts, p.1.Beyond := by
  refine course_induction (P := fun acts e =>
    start.Rests (start.attempts acts).length e ∧ ∀ p ∈ start.course acts, p.1.Beyond)
    (Q := fun _ a => a.fromOutside = false) ?nil ?concat fun p among => inside p.2 (mem_of_mem_course among)
  case nil => exact ⟨Around.rests ⟨rfl, rfl⟩, List.forall_mem_nil _⟩
  case concat =>
    rintro acts a ⟨rests, far⟩ inside
    have here := rests.beyond beyond
    obtain ⟨more, -, -⟩ := rests_act here inside
    rw [attempts, course_concat, List.flatMap_append, List.flatMap_singleton, List.length_append,
      List.forall_mem_append, List.forall_mem_singleton]
    exact ⟨rests.trans more, far, here⟩

/-! ### The first time -/

theorem beyond_catchUp {now : τ} {budget : Nat} {c : Emulator τ} {pc : Int} (begins : c ∈ begunDue now budget e)
    (meets : c.step.result = .error (.finished pc)) : (catchUp now budget e).state.Beyond := by
  induction budget generalizing e with
  | zero => cases begins
  | succ budget ih =>
    by_cases due : e.due now
    · rw [begunDue, if_pos due] at begins
      rcases List.mem_cons.1 begins with rfl | later
      · obtain ⟨-, journal, caught⟩ := catchUp_of_finished due meets budget
        rw [caught]
        exact beyond_of_finished meets
      · rw [catchUp, if_pos due]
        dsimp only at later ⊢
        split
        next ran =>
          rw [ran] at later
          exact ih later
        next stops =>
          rw [stops] at later
          cases later
        next stops =>
          rw [stops] at later
          cases later
    · rw [begunDue, if_neg due] at begins
      cases begins

theorem beyond_runOnce {c : Emulator τ} {pc : Int} (begins : c ∈ e.begunPass)
    (meets : c.step.result = .error (.finished pc)) : e.runOnce.state.Beyond := by
  have ran : e.cycled.state.Beyond := beyond_catchUp begins meets
  rcases e.runOnce_cases with ⟨f, _, stopped⟩ | ⟨_, goes, done⟩
  · rw [stopped]
    exact ran
  · rw [done]
    exact (Around.follow _ _).rests.beyond ran

/-- A cycle or a pass has met the end of the program, by a fetch or by a skip that is taken, in any state. From then
    on every attempt at a cycle meets it again and moves the counter by two bytes, whatever the clock shows and
    whichever keys are held; after so many attempts the machine and the count of cycles are what they were but for
    the counter and the surroundings. A pass makes one attempt at most and comes to its end; its value is that the
    program goes on until it has been noted as finished, and that is so from the first attempt on. -/
theorem finished_for_good {a : Act τ} (single : a = .step ∨ a = .runOnce)
    (meets : ∃ c ∈ e.begun a, ∃ pc, c.step.result = .error (.finished pc)) {acts : List (Act τ)}
    (inside : ∀ b ∈ acts, b.fromOutside = false) :
    let start := (e.act a).state
    let after := start.actAll acts
    (∀ c ∈ start.attempts acts,
      c.step = .stopped (c.withMachine (c.machine.ahead 2)) (.finished (c.machine.core.pc.addr + 2))) ∧
    after.machine.interior = (start.machine.ahead (2 * (start.attempts acts).length)).interior ∧
    after.cycles = start.cycles ∧
    ∀ p ∈ start.course acts, ∀ q ∈ p.1.passes p.2, q.begunPass.length ≤ 1 ∧
      ∃ passed, q.runOnce = .done passed (!passed.finished) ∧
        (passed.finished = true ↔ q.finished = true ∨ q.begunPass ≠ []) := by
  intro start after
  have beyond : start.Beyond := by
    obtain ⟨c, begins, pc, met⟩ := meets
    rcases single with rfl | rfl
    · obtain rfl := List.mem_singleton.1 begins
      exact beyond_of_finished met
    · rw [begun_runOnce] at begins
      exact beyond_runOnce begins met
  obtain ⟨rests, far⟩ := rests_course beyond inside
  refine ⟨fun c begins => ?_, rests.interior, rests.cycles, fun p among q begins => ?_⟩
  · obtain ⟨p, among, begins⟩ := List.mem_flatMap.1 begins
    obtain ⟨-, -, behind⟩ := rests_act (far p among) (inside p.2 (mem_of_mem_course among))
    exact step_of_beyond (behind c begins)
  · obtain ⟨-, behind, -⟩ := rests_act (far p among) (inside p.2 (mem_of_mem_course among))
    obtain ⟨passed, done, attempted⟩ := runOnce_of_beyond (behind q begins)
    exact ⟨attempted.length_le, passed, done, attempted.finished_iff⟩

/-- A skip that is taken is the last instruction of its program. -/
theorem finished_for_good_skip : ∃ e : Emulator Rat, ofProgram (.plain #[0x30, 0x00]) = .ok e ∧
    e.step.result = .error (.finished 0x204) ∧
    let after := e.step.state.actAll [.step, .syncTimers, .hold (.holding ["1"]), .step]
    after.machine.interior = (e.step.state.machine.ahead 4).interior ∧ after.cycles = e.step.state.cycles := by
  obtain ⟨e, starts, started⟩ := exists_plain #[0x30, 0x00] (by decide)
  have word : e.machine.nextWord = Instruction.encode (.skip (.equalsByte 0 0)) :=
    (started.nextWord (by decide)).trans (by decide)
  have counter : e.machine.core.pc = ⟨0x200, 0x202⟩ := by rw [started.machine]; rfl
  have met : Condition.Met e.machine (.equalsByte 0 0) := by rw [started.machine]; rfl
  have fails : e.Fails (.finished (e.machine.core.pc.addr + 4)) _ :=
    .skipped (by rw [PastEnd, counter]; decide) word met (by rw [counter]; decide)
  have stops : e.step.result = .error (.finished 0x204) := by
    rw [step_of_fails fails, counter]
    rfl
  let acts : List (Act Rat) := [.step, .syncTimers, .hold (.holding ["1"]), .step]
  have inside : ∀ a ∈ acts, a.fromOutside = false := by decide
  obtain ⟨-, interior, cycles, -⟩ :=
    finished_for_good (e := e) (.inl rfl) ⟨e, List.mem_singleton_self e, _, stops⟩ inside
  exact ⟨e, starts, stops, interior, cycles⟩

end Emulator

end Chip8
