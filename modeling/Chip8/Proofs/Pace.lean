import Mathlib.Data.Rat.Floor
import Mathlib.Tactic.Linarith
import Mathlib.Tactic.Ring
import Chip8.Proofs.History

/-!
The pace of the passes, in exact time. A pass runs as many cycles as intervals have gone by since the last cycle
that was due, at most ten (`Emulator.catchUp_behind`), and gives up any more (`Emulator.runOnce_behind`). On a clock
that never goes back the passes therefore never run ahead of it, and they lose nothing unless one of them comes more
than ten cycles late, however they are spaced (`Emulator.pace_of_history`).
-/
namespace Chip8

namespace Time

theorem le_earlier {a b c : Rat} (first : c ≤ a) (second : c ≤ b) : c ≤ earlier a b := by
  unfold earlier
  split
  · exact second
  · exact first

theorem floor_nonneg {interval before now : Rat} (paced : 0 < interval) (ordered : before ≤ now) :
    0 ≤ ⌊(now - before) / interval⌋ := Int.floor_nonneg.2 (div_nonneg (sub_nonneg.2 ordered) paced.le)

theorem floor_advance {span interval : Rat} (paced : 0 < interval) :
    ⌊(span - interval) / interval⌋ = ⌊span / interval⌋ - 1 := by
  rw [sub_div, div_self paced.ne', Int.floor_sub_one]

end Time

/-- A clock that never goes back. -/
def Clock.Forward (c : Clock Rat) : Prop := ∀ n now, now ≤ c.reading n now

/-- The second state of a clock comes after the first. -/
structure Clock.Since (c later : Clock Rat) : Prop where
  reading : later.reading = c.reading
  now_le : c.now ≤ later.now

namespace Clock.Since
variable {c mid later : Clock Rat}

theorem of_eq (same : later = c) : c.Since later := by
  rw [same]
  exact ⟨rfl, le_rfl⟩

theorem trans (first : c.Since mid) (second : mid.Since later) : c.Since later :=
  ⟨second.reading.trans first.reading, first.now_le.trans second.now_le⟩

theorem forward (since : c.Since later) (forward : c.Forward) : later.Forward := by
  rw [Forward, since.reading]
  exact forward

theorem read (forward : c.Forward) : c.Since c.read := ⟨rfl, forward _ _⟩

theorem sleep {span : Rat} (nonneg : 0 ≤ span) : c.Since (c.sleep span) := by
  refine ⟨rfl, ?_⟩
  show c.now ≤ c.now + span
  linarith

end Clock.Since

namespace Machine

@[simp] theorem clock_look (m : Machine Rat) : m.look.clock = m.clock := by simp only [look]
@[simp] theorem clock_tested (m : Machine Rat) (c : Condition) : (m.tested c).clock = m.clock := by
  cases c <;> simp [tested, Condition.readsKeys]

/-- Only setting a timer reads the clock. -/
theorem clock_execute (m : Machine Rat) (forward : m.clock.Forward) (i : Instruction) :
    m.clock.Since (m.execute i).state.clock := by
  cases i with
  | setDelay x | setSound x => exact .read forward
  | skip c =>
    apply Clock.Since.of_eq
    rw [execute, skip_eq]
    split
    · simp only [Attempt.state_within, clock_tested]
    · simp only [Attempt.state_done, clock_tested]
  | waitKey x =>
    apply Clock.Since.of_eq
    cases found : m.look.awaited? with
    | none => simp only [execute, waitKey_of_none x found, Attempt.state_done, clock_look]
    | some key => simp only [execute, waitKey_of_some x found, Attempt.state_done, clock_look]
  | _ => exact .of_eq rfl

end Machine

namespace Emulator
variable {e : Emulator Rat}

/-- The cycle that begins here runs through. -/
def Runs (e : Emulator Rat) : Prop := ∃ i, e.step.result = .ok i

/-- How many cycles the next pass finds due. -/
def behind (e : Emulator Rat) : Int := ⌊(e.machine.clock.read.now - e.lastCycle) / e.interval⌋

/-! ### One cycle -/

/-- The pace is not the matter of the instructions. -/
structure Paced (e after : Emulator Rat) : Prop where
  interval : after.interval = e.interval
  lastCycle : after.lastCycle = e.lastCycle
  finished : after.finished = e.finished

theorem paced_step (e : Emulator Rat) : e.Paced e.step.state := by
  rcases e.step_cases with ⟨after, _, _, stepped⟩ | ⟨f, after, _, stepped⟩
  · rw [stepped]
    exact ⟨rfl, rfl, rfl⟩
  · rw [stepped]
    exact ⟨rfl, rfl, rfl⟩

theorem clock_step (forward : e.machine.clock.Forward) : e.machine.clock.Since e.step.state.machine.clock := by
  rcases Int.lt_or_le e.machine.core.pc.limit (e.machine.core.pc.addr + 2) with beyond | room
  · rw [step_of_lt beyond]
    exact .of_eq rfl
  · rw [machine_step_of_le room]
    exact (e.machine.ahead 2).clock_execute forward _

/-! ### The cycles of a pass -/

theorem due_iff (paced : 0 < e.interval) (now : Rat) : e.due now ↔ 1 ≤ ⌊(now - e.lastCycle) / e.interval⌋ := by
  rw [Int.le_floor, Int.cast_one, one_le_div paced]
  exact Iff.rfl

/-- One more interval is accounted for. -/
def paid (e : Emulator Rat) : Emulator Rat := { e with lastCycle := e.lastCycle + e.interval }

theorem begunDue_of_due {now : Rat} (due : e.due now) (budget : Nat) :
    begunDue now (budget + 1) e = e.paid :: match e.paid.step.result with
      | .ok _ => begunDue now budget e.paid.step.state
      | .error _ => [] := by
  rw [begunDue, if_pos due]
  rfl

theorem catchUp_of_due {now : Rat} {i : Instruction} (due : e.due now) (ran : e.paid.step.result = .ok i)
    (budget : Nat) : catchUp now (budget + 1) e = catchUp now budget e.paid.step.state := by
  rw [catchUp, if_pos due]
  have paid : { e with lastCycle := e.lastCycle + e.interval } = e.paid := rfl
  simp only [paid, ran]

/-- What is due at a time and none of which is stopped is run, at most so many cycles, and paid for. -/
theorem catchUp_behind (now : Rat) (budget : Nat) (paced : 0 < e.interval) (ordered : e.lastCycle ≤ now)
    (runs : ∀ c ∈ begunDue now budget e, c.Runs) :
    ∃ after, catchUp now budget e = .done after () ∧ after.interval = e.interval ∧ after.finished = e.finished ∧
      ((begunDue now budget e).length : Int) = min (budget : Int) ⌊(now - e.lastCycle) / e.interval⌋ ∧
      after.cycles = e.cycles + (begunDue now budget e).length ∧
      after.lastCycle = e.lastCycle + (begunDue now budget e).length * e.interval := by
  induction budget generalizing e with
  | zero =>
    refine ⟨e, rfl, rfl, rfl, ?_, rfl, ?_⟩
    · simp [begunDue, Time.floor_nonneg paced ordered]
    · simp [begunDue]
  | succ budget ih =>
    by_cases due : e.due now
    · -- A cycle is paid for, and one less is due of the budget and of the quotient.
      rw [begunDue_of_due due, List.forall_mem_cons] at runs
      obtain ⟨⟨i, ran⟩, later⟩ := runs
      have begun : begunDue now (budget + 1) e = e.paid :: begunDue now budget e.paid.step.state := by
        rw [begunDue_of_due due, ran]
      rw [ran] at later
      obtain ⟨interval, lastCycle, finished⟩ := e.paid.paced_step
      obtain ⟨_, counted⟩ := counted_of_ok ran
      have ordered : e.paid.step.state.lastCycle ≤ now := by
        rw [lastCycle]
        exact add_le_of_le_sub_left due
      have left : ⌊(now - e.paid.step.state.lastCycle) / e.paid.step.state.interval⌋ =
          ⌊(now - e.lastCycle) / e.interval⌋ - 1 := by
        rw [interval, lastCycle, paid, ← sub_sub, Time.floor_advance paced]
      obtain ⟨after, rest, same, goes, length, cycles, moved⟩ := ih (by rw [interval]; exact paced) ordered later
      rw [begun, catchUp_of_due due ran, List.length_cons]
      refine ⟨after, rest, same.trans interval, goes.trans finished, ?_, ?_, ?_⟩
      · have one := (due_iff paced now).1 due
        omega
      · rw [cycles, counted, Nat.add_right_comm]
        rfl
      · rw [moved, lastCycle, interval, Nat.cast_succ]
        simp only [paid]
        ring
    · have less : ⌊(now - e.lastCycle) / e.interval⌋ < 1 := Int.not_le.1 ((due_iff paced now).not.1 due)
      have zero : ⌊(now - e.lastCycle) / e.interval⌋ = 0 := by
        have nonneg := Time.floor_nonneg paced ordered
        omega
      rw [begunDue, catchUp, if_neg due, if_neg due, zero]
      exact ⟨e, rfl, rfl, rfl, by simp; omega, rfl, by simp⟩

/-! ### Passes -/

theorem Paced.trans {mid after : Emulator Rat} (first : e.Paced mid) (second : mid.Paced after) : e.Paced after :=
  ⟨second.interval.trans first.interval, second.lastCycle.trans first.lastCycle,
    second.finished.trans first.finished⟩

theorem paced_syncDisplay (e : Emulator Rat) (now : Rat) : e.Paced (e.syncDisplay now).1 := by
  have looked := e.looked_syncDisplay now
  generalize e.syncDisplay now = after at looked ⊢
  cases looked <;> exact ⟨rfl, rfl, rfl⟩

theorem paced_follow (e : Emulator Rat) (now : Rat) : e.Paced (e.syncTimers.syncDisplay now).1 := by
  have ticked : e.Paced e.syncTimers := ⟨rfl, rfl, rfl⟩
  exact ticked.trans (paced_syncDisplay _ now)

/-- Once ten cycles are paid for, or all that were due, what is still due is given up. -/
theorem lastCycle_dropBacklog {now before : Rat} {count : Nat} (paced : 0 < e.interval)
    (counted : (count : Int) = min 10 ⌊(now - before) / e.interval⌋)
    (moved : e.lastCycle = before + count * e.interval) :
    (e.dropBacklog now).lastCycle = (if ⌊(now - before) / e.interval⌋ ≤ 10
      then before + ⌊(now - before) / e.interval⌋ * e.interval else now) := by
  have least := Int.sub_floor_div_mul_nonneg (now - before) paced
  have most := Int.sub_floor_div_mul_lt (now - before) paced
  generalize ⌊(now - before) / e.interval⌋ = quotient at *
  by_cases few : quotient ≤ 10
  · have all : (count : Rat) = quotient := by
      rw [min_eq_right few] at counted
      exact_mod_cast counted
    rw [all] at moved
    have caught : ¬ e.due now := by
      show ¬ e.interval ≤ now - e.lastCycle
      rw [moved]
      linarith
    rw [dropBacklog, if_neg caught, if_pos few, moved]
  · have ten : (count : Rat) = 10 := by
      rw [min_eq_left (by omega)] at counted
      exact_mod_cast counted
    rw [ten] at moved
    have eleven : 11 * e.interval ≤ quotient * e.interval := by
      apply mul_le_mul_of_nonneg_right _ paced.le
      have more : 11 ≤ quotient := by omega
      exact_mod_cast more
    have late : e.due now := by
      show e.interval ≤ now - e.lastCycle
      rw [moved]
      linarith
    rw [dropBacklog, if_pos late, if_neg few]

theorem pace_dropBacklog (e : Emulator Rat) (now : Rat) :
    (e.dropBacklog now).interval = e.interval ∧ (e.dropBacklog now).finished = e.finished := by
  obtain ⟨lastCycle, dropped⟩ := e.dropBacklog_eq now
  rw [dropped]
  exact ⟨rfl, rfl⟩

/-- A pass none of whose cycles is stopped runs what is due, at most ten cycles. So many are paid for one by one;
    any more are given up. -/
theorem runOnce_behind (forward : e.machine.clock.Forward) (paced : 0 < e.interval)
    (ordered : e.lastCycle ≤ e.machine.clock.now) (runs : ∀ c ∈ e.begunPass, c.Runs) :
    ∃ after, e.runOnce = .done after (!e.finished) ∧ after.interval = e.interval ∧
      (e.begunPass.length : Int) = min 10 e.behind ∧ after.cycles = e.cycles + e.begunPass.length ∧
      after.lastCycle = if e.behind ≤ 10 then e.lastCycle + e.behind * e.interval else e.machine.clock.read.now := by
  let now := e.machine.clock.read.now
  have reached : e.lastCycle ≤ now := ordered.trans (forward _ _)
  obtain ⟨done, caught, interval, finished, length, cycles, lastCycle⟩ :=
    catchUp_behind (e := e.readClock) now maxCatchUp paced reached runs
  obtain ⟨dropped, goes⟩ := done.pace_dropBacklog now
  obtain ⟨followed, last, finished'⟩ := (done.dropBacklog now).paced_follow now
  have passed : e.runOnce = (catchUp now maxCatchUp e.readClock).andThen fun e () =>
      .done ((e.dropBacklog now).syncTimers.syncDisplay now).1
        (!((e.dropBacklog now).syncTimers.syncDisplay now).1.finished) := rfl
  refine ⟨((done.dropBacklog now).syncTimers.syncDisplay now).1, ?_, ?_, length, ?_, ?_⟩
  · rw [passed, caught, Attempt.andThen_done, finished', goes, finished]
    rfl
  · exact followed.trans (dropped.trans interval)
  · exact (Around.follow done now).cycles.trans cycles
  · have moved : done.lastCycle = e.lastCycle + e.begunPass.length * done.interval := by
      rw [interval]
      exact lastCycle
    rw [last, lastCycle_dropBacklog (by rw [interval]; exact paced) (by rw [interval]; exact length) moved, interval]
    rfl

/-- After such a pass less than an interval is owed. -/
theorem behind_of_lastCycle {now before after interval : Rat} (paced : 0 < interval) (moved : after =
    if ⌊(now - before) / interval⌋ ≤ 10 then before + ⌊(now - before) / interval⌋ * interval else now) :
    0 ≤ now - after ∧ now - after < interval := by
  have least := Int.sub_floor_div_mul_nonneg (now - before) paced
  have most := Int.sub_floor_div_mul_lt (now - before) paced
  rw [moved]
  split
  · constructor <;> linarith
  · simpa using paced

/-! ### Between the passes -/

/-- Time may have passed; neither the cycles nor what they are paid with changed. -/
structure Beside (e after : Emulator Rat) : Prop where
  interval : after.interval = e.interval
  lastCycle : after.lastCycle = e.lastCycle
  cycles : after.cycles = e.cycles
  clock : e.machine.clock.Since after.machine.clock

namespace Beside
variable {mid after : Emulator Rat}

theorem of_eq (interval : after.interval = e.interval) (lastCycle : after.lastCycle = e.lastCycle)
    (cycles : after.cycles = e.cycles) (clock : after.machine.clock = e.machine.clock) : e.Beside after :=
  ⟨interval, lastCycle, cycles, .of_eq clock⟩

theorem poll (e : Emulator Rat) (p : Poll) : e.Beside (e.poll p) := by
  obtain ⟨held, closes⟩ := p
  cases held with
  | none => exact .of_eq rfl rfl rfl rfl
  | some names => exact .of_eq rfl rfl rfl rfl

theorem syncDisplay (e : Emulator Rat) (now : Rat) : e.Beside (e.syncDisplay now).1 := by
  obtain ⟨interval, lastCycle, _⟩ := e.paced_syncDisplay now
  obtain ⟨dirty, machine⟩ := e.machine_syncDisplay now
  refine .of_eq interval lastCycle (Around.syncDisplay e now).cycles ?_
  rw [machine]

variable (forward : e.machine.clock.Forward)
include forward

theorem readClock : e.Beside e.readClock := ⟨rfl, rfl, rfl, .read forward⟩

theorem exec (i : Instruction) : e.Beside (e.exec i).state := by
  have clock := e.machine.clock_execute forward i
  rw [← machine_exec] at clock
  refine ⟨?_, ?_, ?_, clock⟩
  all_goals simp only [Emulator.exec]; split <;> rfl

theorem syncTimers : e.Beside e.syncTimers := by
  have again : e.machine.clock.read.Forward := (Clock.Since.read forward).forward forward
  exact ⟨rfl, rfl, rfl, Clock.Since.trans (.read forward) (.read again)⟩

theorem idle : e.Beside e.idle := by
  simp only [Emulator.idle]
  split
  next early =>
    have millisecond : (0 : Rat) ≤ Time.millisecond := by decide +kernel
    have span := Time.le_earlier (sub_nonneg.2 (le_of_lt early)) millisecond
    exact ⟨rfl, rfl, rfl, Clock.Since.trans (.read forward) (.sleep span)⟩
  next => exact .readClock forward

end Beside

/-! ### Any acts -/

/-- On the way to the second state the pace stayed the same and the clock went on, and the cycles did not get ahead
    of it. -/
structure Onward (e after : Emulator Rat) : Prop where
  interval : after.interval = e.interval
  clock : e.machine.clock.Since after.machine.clock
  ordered : e.lastCycle ≤ e.machine.clock.now → after.lastCycle ≤ after.machine.clock.now

namespace Onward
variable {mid after : Emulator Rat}

theorem refl (e : Emulator Rat) : e.Onward e := ⟨rfl, .of_eq rfl, id⟩

theorem trans (first : e.Onward mid) (second : mid.Onward after) : e.Onward after where
  interval := second.interval.trans first.interval
  clock := first.clock.trans second.clock
  ordered ordered := second.ordered (first.ordered ordered)

theorem of_beside (beside : e.Beside after) : e.Onward after where
  interval := beside.interval
  clock := beside.clock
  ordered ordered := by
    rw [beside.lastCycle]
    exact ordered.trans beside.clock.now_le

theorem dropBacklog {now : Rat} (shown : now ≤ e.machine.clock.now) : e.Onward (e.dropBacklog now) := by
  unfold Emulator.dropBacklog
  split
  · exact ⟨rfl, .of_eq rfl, fun _ => shown⟩
  · exact .refl e

variable (forward : e.machine.clock.Forward)
include forward

theorem step : e.Onward e.step.state := by
  obtain ⟨interval, lastCycle, _⟩ := e.paced_step
  have clock := clock_step forward
  refine ⟨interval, clock, fun ordered => ?_⟩
  rw [lastCycle]
  exact ordered.trans clock.now_le

/-- The cycles that were due at a time that the clock has shown. -/
theorem catchUp {now : Rat} (budget : Nat) (shown : now ≤ e.machine.clock.now) :
    e.Onward (Emulator.catchUp now budget e).state := by
  induction budget generalizing e with
  | zero => exact .refl e
  | succ budget ih =>
    unfold Emulator.catchUp
    by_cases due : e.due now
    · have paid : e.Onward e.paid := ⟨rfl, .of_eq rfl, fun _ => (add_le_of_le_sub_left due).trans shown⟩
      have stepped := paid.trans (.step (e := e.paid) forward)
      rw [if_pos due]
      dsimp only
      split
      · exact stepped.trans (ih (stepped.clock.forward forward) (shown.trans stepped.clock.now_le))
      · exact stepped.trans (.of_beside (.of_eq rfl rfl rfl rfl))
      · exact stepped
    · rw [if_neg due]
      exact .refl e

theorem runOnce : e.Onward e.runOnce.state := by
  have read := Beside.readClock forward
  have ran := Onward.catchUp (e := e.readClock) (read.clock.forward forward) maxCatchUp le_rfl
  unfold Emulator.runOnce Attempt.andThen
  dsimp only
  split
  next =>
    have dropped := Onward.dropBacklog ran.clock.now_le
    have onward := (of_beside read).trans (ran.trans dropped)
    have ticked := onward.trans (.of_beside (.syncTimers (onward.clock.forward forward)))
    exact ticked.trans (.of_beside (.syncDisplay _ _))
  next => exact (of_beside read).trans ran

theorem run (polls : Nat → Poll) (first passes : Nat) : e.Onward (e.run polls first passes).1.state := by
  refine run_induction (P := e.Onward) (Q := fun _ => True) ?_ ?_ ?_ ?_ polls first passes (fun _ _ => trivial) (refl e)
  · exact fun mid p onward => onward.trans (.of_beside (.poll mid p))
  · exact fun mid _ onward => onward.trans (.runOnce (onward.clock.forward forward))
  · exact fun mid onward => onward.trans (.of_beside (.idle (onward.clock.forward forward)))
  · exact fun mid onward => onward.trans (.of_beside (.of_eq rfl rfl rfl rfl))

end Onward

/-- The act takes the time from the clock. -/
def Driven (_ : Emulator Rat) : Act Rat → Prop
  | .catchUp _ _ | .dropBacklog _ => False
  | _ => True

/-- Such an act is a cycle, a pass or passes, or it stands beside them. -/
theorem act_cases (forward : e.machine.clock.Forward) {a : Act Rat} (driven : e.Driven a) :
    a = .step ∨ a = .runOnce ∨ (∃ polls first passes, a = .run polls first passes) ∨ e.Beside (e.act a).state := by
  cases a with
  | step => exact .inl rfl
  | runOnce => exact .inr (.inl rfl)
  | run polls first passes => exact .inr (.inr (.inl ⟨polls, first, passes, rfl⟩))
  | catchUp | dropBacklog => cases driven
  | syncTimers => exact .inr (.inr (.inr (.syncTimers forward)))
  | syncDisplay now => exact .inr (.inr (.inr (.syncDisplay e now)))
  | idle => exact .inr (.inr (.inr (.idle forward)))
  | readClock => exact .inr (.inr (.inr (.readClock forward)))
  | exec i => exact .inr (.inr (.inr (.exec forward i)))
  | paint x y rows | clear | hold keyboard => exact .inr (.inr (.inr (.of_eq rfl rfl rfl rfl)))

theorem Onward.of_history {start : Emulator Rat} (forward : start.machine.clock.Forward)
    (history : start.History Driven e) : start.Onward e := by
  induction history with
  | nil => exact .refl start
  | snoc _ driven ih =>
    have forward := ih.clock.forward forward
    refine ih.trans ?_
    obtain rfl | rfl | ⟨polls, first, passes, rfl⟩ | beside := act_cases forward driven
    · exact .step forward
    · exact .runOnce forward
    · exact .run forward polls first passes
    · exact .of_beside beside

/-! ### Schedules -/

/-- Cycles run in passes only, and every pass has the property. -/
def Scheduled (Q : Emulator Rat → Prop) (e : Emulator Rat) (a : Act Rat) : Prop :=
  e.Driven a ∧ a ≠ .step ∧ ∀ p ∈ e.passes a, Q p

/-- No cycle of the next pass is stopped. -/
def PassRuns (e : Emulator Rat) : Prop := ∀ c ∈ e.begunPass, c.Runs

/-- The cycles counted since the start and the time they were given are so related. -/
structure Accounted (R : Rat → Rat → Prop) (start e : Emulator Rat) : Prop where
  onward : start.Onward e
  account : R (e.cycles * start.interval) (e.lastCycle - start.lastCycle)

/-- A pass moves the pace by what its cycles are given, or by more if some are given up. -/
theorem account_runOnce (forward : e.machine.clock.Forward) (paced : 0 < e.interval)
    (ordered : e.lastCycle ≤ e.machine.clock.now) (runs : e.PassRuns) :
    ∃ count : Nat, e.runOnce.state.cycles = e.cycles + count ∧
      count * e.interval ≤ e.runOnce.state.lastCycle - e.lastCycle ∧
      (e.behind ≤ 10 → count * e.interval = e.runOnce.state.lastCycle - e.lastCycle) := by
  obtain ⟨after, passed, _, length, cycles, moved⟩ := runOnce_behind forward paced ordered runs
  rw [passed, Attempt.state_done, moved, cycles]
  refine ⟨e.begunPass.length, rfl, ?_⟩
  by_cases few : e.behind ≤ 10
  · have all : (e.begunPass.length : Rat) = e.behind := by
      rw [min_eq_right few] at length
      exact_mod_cast length
    rw [if_pos few, all, add_sub_cancel_left]
    exact ⟨le_rfl, fun _ => rfl⟩
  · have ten : (e.begunPass.length : Rat) ≤ e.behind := by
      have least : (e.begunPass.length : Int) ≤ e.behind := length.trans_le (min_le_right _ _)
      exact_mod_cast least
    rw [if_neg few]
    refine ⟨(mul_le_mul_of_nonneg_right ten paced.le).trans ?_, fun more => absurd more few⟩
    exact sub_nonneg.1 (Int.sub_floor_div_mul_nonneg _ paced)

section
variable {start : Emulator Rat} {R : Rat → Rat → Prop} {Q : Emulator Rat → Prop}

theorem Accounted.beside {after : Emulator Rat} (accounted : Accounted R start e) (beside : e.Beside after) :
    Accounted R start after where
  onward := accounted.onward.trans (.of_beside beside)
  account := by
    rw [beside.cycles, beside.lastCycle]
    exact accounted.account

/-- A relation that the passes keep holds all along a schedule. -/
theorem Accounted.of_history (forward : start.machine.clock.Forward) (holds : Accounted R start start)
    (pass : ∀ p, Q p → Accounted R start p → Accounted R start p.runOnce.state)
    (history : start.History (Scheduled Q) e) : Accounted R start e := by
  induction history with
  | nil => exact holds
  | @snoc e a _ allowed ih =>
    obtain ⟨driven, pause, each⟩ := allowed
    obtain rfl | rfl | ⟨polls, first, passes, rfl⟩ | beside := act_cases (ih.onward.clock.forward forward) driven
    · exact absurd rfl pause
    · exact pass e (each e (List.mem_singleton_self e)) ih
    · refine run_induction ?_ pass ?_ ?_ polls first passes each ih
      · exact fun mid p accounted => accounted.beside (.poll mid p)
      · exact fun mid accounted => accounted.beside (.idle (accounted.onward.clock.forward forward))
      · exact fun mid accounted => accounted.beside (.of_eq rfl rfl rfl rfl)
    · exact ih.beside beside

/-- The start itself counts no cycle, and the clock has shown the time it is paced from. -/
structure Fresh (start : Emulator Rat) : Prop where
  forward : start.machine.clock.Forward
  paced : 0 < start.interval
  lastCycle : start.lastCycle = start.machine.clock.now
  cycles : start.cycles = 0

namespace Fresh
variable (fresh : start.Fresh)
include fresh

theorem accounted (zero : R 0 0) : Accounted R start start where
  onward := .refl start
  account := by
    rw [fresh.cycles, Nat.cast_zero, zero_mul, sub_self]
    exact zero

theorem runOnce (onward : start.Onward e) (runs : e.PassRuns) :
    ∃ count : Nat, e.runOnce.state.cycles = e.cycles + count ∧
      count * start.interval ≤ e.runOnce.state.lastCycle - e.lastCycle ∧
      (e.behind ≤ 10 → count * start.interval = e.runOnce.state.lastCycle - e.lastCycle) := by
  have paced : 0 < e.interval := by
    rw [onward.interval]
    exact fresh.paced
  rw [← onward.interval]
  exact account_runOnce (onward.clock.forward fresh.forward) paced (onward.ordered fresh.lastCycle.le) runs

/-- The cycles counted never take more time than the pace has moved. -/
theorem accounted_le (runs : e.PassRuns) (accounted : Accounted (· ≤ ·) start e) :
    Accounted (· ≤ ·) start e.runOnce.state := by
  obtain ⟨onward, account⟩ := accounted
  obtain ⟨count, cycles, within, _⟩ := fresh.runOnce onward runs
  refine ⟨onward.trans (.runOnce (onward.clock.forward fresh.forward)), ?_⟩
  rw [cycles, Nat.cast_add, add_mul]
  linarith

/-- They take just that time unless a pass gives some up. -/
theorem accounted_eq (runs : e.PassRuns) (few : e.behind ≤ 10) (accounted : Accounted (· = ·) start e) :
    Accounted (· = ·) start e.runOnce.state := by
  obtain ⟨onward, account⟩ := accounted
  obtain ⟨count, cycles, _, exact⟩ := fresh.runOnce onward runs
  refine ⟨onward.trans (.runOnce (onward.clock.forward fresh.forward)), ?_⟩
  rw [cycles, Nat.cast_add, add_mul, account, exact few]
  ring

end Fresh

end

/-- An emulator that has just been started at a positive rate, on a clock that never goes back. -/
theorem fresh_of_start {machine : Machine Rat} {rate : Int} {window : Window} {speaker : Speaker} {journal : Journal}
    {start : Emulator Rat} (started : Emulator.start machine rate window speaker journal = .ok start)
    (positive : 0 < rate) (forward : machine.clock.Forward) : start.Fresh ∧ start.interval = 1 / rate := by
  have period : Time.period rate = .ok (1 / rate : Rat) := if_neg positive.ne'
  rw [Emulator.start, period] at started
  cases started
  have rate : (0 : Rat) < rate := by exact_mod_cast positive
  exact ⟨⟨(Clock.Since.read forward).forward forward, one_div_pos.2 rate, rfl, rfl⟩, rfl⟩

/-- An emulator that has just been started on a clock that never goes back, and a pass that finds it after any acts,
    none of whose cycles is stopped. The pass runs as many cycles as intervals have gone by, at most ten, and less
    than an interval is left. If cycles ran in such passes only, however spaced, those counted never take more time
    than has gone by since the start; and unless one of the passes came more than ten cycles late, they are all that
    fit in it. -/
theorem pace_of_history {start e : Emulator Rat} (fresh : start.Fresh) (history : start.History Driven e)
    (runs : e.PassRuns) :
    let now := e.machine.clock.read.now
    e.interval = start.interval ∧ ∃ after, e.runOnce = .done after (!e.finished) ∧
      (e.begunPass.length : Int) = min 10 ⌊(now - e.lastCycle) / e.interval⌋ ∧
      after.cycles = e.cycles + e.begunPass.length ∧
      (0 ≤ now - after.lastCycle ∧ now - after.lastCycle < e.interval) ∧
      after.lastCycle = (if ⌊(now - e.lastCycle) / e.interval⌋ ≤ 10
        then e.lastCycle + ⌊(now - e.lastCycle) / e.interval⌋ * e.interval else now) ∧
      (start.History (Scheduled PassRuns) e → after.cycles * e.interval ≤ now - start.lastCycle) ∧
      (start.History (Scheduled fun p => p.PassRuns ∧ p.behind ≤ 10) e → e.behind ≤ 10 →
        (after.cycles : Int) = ⌊(now - start.lastCycle) / e.interval⌋) := by
  have onward := Onward.of_history fresh.forward history
  have paced : 0 < e.interval := by
    rw [onward.interval]
    exact fresh.paced
  obtain ⟨after, passed, _, length, cycles, moved⟩ := runOnce_behind (onward.clock.forward fresh.forward) paced
    (onward.ordered fresh.lastCycle.le) runs
  have state : e.runOnce.state = after := by rw [passed, Attempt.state_done]
  obtain ⟨reached, left⟩ := behind_of_lastCycle paced moved
  refine ⟨onward.interval, after, passed, length, cycles, ⟨reached, left⟩, moved, ?_, ?_⟩
  · intro schedule
    have before := Accounted.of_history fresh.forward (fresh.accounted le_rfl) (fun p => fresh.accounted_le) schedule
    have account := (fresh.accounted_le runs before).account
    rw [state, ← onward.interval] at account
    linarith
  · intro schedule few
    have before := Accounted.of_history fresh.forward (fresh.accounted rfl)
      (fun p allowed => fresh.accounted_eq allowed.1 allowed.2) schedule
    have account := (fresh.accounted_eq runs few before).account
    rw [state, ← onward.interval] at account
    symm
    rw [Int.floor_eq_iff, le_div_iff₀ paced, div_lt_iff₀ paced, add_one_mul, Int.cast_natCast, account]
    constructor <;> linarith

theorem step_of_jump {addr : Address} (word : e.machine.nextWord = Instruction.encode (.jump addr))
    (room : e.machine.core.pc.addr + 2 ≤ e.machine.core.pc.limit) : e.step.result = .ok (.jump addr) := by
  rw [step_of_word (by simp) word room (by rw [Machine.execute]), Attempt.result_done]

theorem pace_of_history_second : ∃ start after : Emulator Rat,
    ofProgram ⟨#[0x12, 0x00], 1, .plain, .seeded 0, .ticking (0 : Rat) 1, false, true⟩ = .ok start ∧
    start.runOnce = .done after true ∧ after.cycles = 1 := by
  let s : Setup Rat := ⟨#[0x12, 0x00], 1, .plain, .seeded 0, .ticking 0 1, false, true⟩
  have period : Time.period s.rate = .ok (1 : Rat) := by decide +kernel
  obtain ⟨start, starts⟩ := exists_ofProgram (s := s) (by decide) period
  obtain ⟨_, journal, begun⟩ := start_of_ofProgram starts
  have started := started_of_ofProgram starts
  have forward : s.loaded.clock.Forward := fun _ now => le_add_of_nonneg_right zero_le_one
  obtain ⟨fresh, interval⟩ := fresh_of_start begun Int.one_pos forward
  have interval : start.interval = 1 := interval.trans (by decide +kernel)
  have last : start.lastCycle = 3 := started.lastCycle.trans (by decide +kernel)
  have now : start.machine.clock.read.now = 4 := by
    rw [started.machine]
    decide +kernel
  have counter : start.machine.core.pc = ⟨0x200, 0x202⟩ := by rw [started.machine]; rfl
  have word : start.machine.nextWord = Instruction.encode (.jump 0x200) :=
    (started.nextWord (by decide)).trans (by decide)
  have runs : start.PassRuns := by
    have room : start.machine.core.pc.addr + 2 ≤ start.machine.core.pc.limit := by rw [counter]; decide
    have ran : start.readClock.paid.step.result = .ok (.jump 0x200) := step_of_jump (e := start.readClock.paid) word room
    have due : start.readClock.due 4 := by
      show start.interval ≤ 4 - start.lastCycle
      rw [interval, last]
      decide +kernel
    have later : ¬ start.readClock.paid.step.state.due 4 := by
      obtain ⟨same, kept, _⟩ := start.readClock.paid.paced_step
      show ¬ start.readClock.paid.step.state.interval ≤ 4 - start.readClock.paid.step.state.lastCycle
      rw [same, kept]
      show ¬ start.interval ≤ 4 - (start.lastCycle + start.interval)
      rw [interval, last]
      decide +kernel
    rw [PassRuns, begunPass, show start.readClock.machine.clock.now = 4 from now, maxCatchUp, begunDue_of_due due, ran]
    simp only [begunDue, if_neg later, List.forall_mem_singleton]
    exact ⟨_, ran⟩
  obtain ⟨_, after, passed, _, _, _, _, _, exact⟩ := pace_of_history fresh .nil runs
  have one : ⌊((4 : Rat) - 3) / 1⌋ = 1 := by norm_num
  rw [started.finished] at passed
  rw [behind, now, last, interval, one] at exact
  have counted : (after.cycles : Int) = 1 := exact .nil (by decide)
  exact ⟨start, after, starts, passed, by exact_mod_cast counted⟩

end Emulator

end Chip8
