import Chip8.Proofs.Beep
import Chip8.Proofs.Display
import Chip8.Proofs.Straight

/-!
The last picture of a program that has finished. The loop leaves as soon as the program has finished, and the display
keeps to its own pace, so the window shows what the latest pass left in which a look at the display was due
(`Emulator.picture_of_run`). A program that ends in time for that is seen as it ended; one that draws and ends within
a sixtieth of a second is not (`Emulator.unseen_picture`).
-/
namespace Chip8
variable {τ : Type}

namespace Emulator

theorem frames_poll (e : Emulator τ) (p : Poll) : (e.poll p).window.frames = e.window.frames := by
  unfold poll
  cases p.closes
  · rfl
  · rfl

variable [Time τ] {e after : Emulator τ}

/-- A look at the display is due in the next pass. -/
def LookDue (e : Emulator τ) : Prop := ¬ e.readClock.machine.clock.now - e.lastRefresh < Time.sixtieth

instance (e : Emulator τ) : Decidable e.LookDue := inferInstanceAs (Decidable (¬ _))

/-- The picture that the next pass leaves. -/
def left (e : Emulator τ) : Frame := e.runOnce.state.machine.screen.pixels

/-! ### One pass -/

/-- A pass shows the screen as it leaves it if a look at the display is due in it, and nothing otherwise. -/
theorem back?_runOnce (faithful : e.Faithful) {goes : Bool} (done : e.runOnce = .done after goes) :
    after.window.frames.back? = if e.LookDue then some after.machine.screen.pixels else e.window.frames.back? := by
  let now := e.readClock.machine.clock.now
  have ran : e.cycled.state.Faithful :=
    faithful_invariant.catchUp now maxCatchUp (faithful_invariant.toKept.readClock faithful)
  have ticked := faithful_invariant.timers (faithful_invariant.toKept.dropBacklog ran now)
  have unseen := e.unseen_cycled.trans (.dropBacklog e.cycled.state now)
  have refreshed : (e.cycled.state.dropBacklog now).syncTimers.lastRefresh = e.lastRefresh := unseen.lastRefresh
  rcases e.runOnce_cases with ⟨f, _, stopped⟩ | ⟨_, _, passed⟩
  · rw [stopped] at done
    cases done
  rw [passed] at done
  cases done
  by_cases due : e.LookDue
  · rw [if_pos due]
    exact back?_syncDisplay ticked (by rw [refreshed]; exact due)
  · rw [if_neg due]
    unfold syncDisplay
    rw [if_pos (by rw [refreshed]; exact Decidable.not_not.1 due)]
    exact congrArg (fun window => window.frames.back?) unseen.window

/-! ### The loop -/

theorem finished_idle (e : Emulator τ) : e.idle.finished = e.finished := by
  obtain ⟨clock, idled⟩ := e.idle_eq
  rw [idled]

theorem screen_idle (e : Emulator τ) : e.idle.machine.screen = e.machine.screen := by
  obtain ⟨clock, idled⟩ := e.idle_eq
  rw [idled]

/-- What a loop that ends has shown and what it leaves, by the passes in it. -/
theorem shown_of_run {polls : Nat → Poll} {first passes : Nat} {finished : Bool} (faithful : e.Faithful)
    (ended : (e.run polls first passes).1.result = .ok (some finished)) :
    (e.run polls first passes).1.state.window.frames.back? =
      (((passesLoop polls first passes e).filter fun p => p.LookDue).getLast?.map left).or e.window.frames.back? ∧
    (e.run polls first passes).1.state.machine.screen.pixels =
      ((passesLoop polls first passes e).getLast?.map left).getD e.machine.screen.pixels := by
  induction passes generalizing first e with
  | zero =>
    by_cases running : e.running = true
    · rw [run, if_pos running] at ended
      cases ended
    · rw [run_of_ended polls first running]
      exact ⟨rfl, rfl⟩
  | succ passes ih =>
    by_cases running : e.running = true
    · have polled := faithful_invariant.toKept.poll faithful (polls first)
      rcases (e.poll (polls first)).speaker_runOnce with ⟨_, f, _, stopped, _⟩ | ⟨after, goes, done, _⟩
      · rw [run_of_stopped polls first running stopped] at ended
        cases ended
      · have passed : after.Faithful := by
          have ran := faithful_invariant.runOnce polled
          rw [done] at ran
          exact ran
        have leaves : (e.poll (polls first)).left = after.machine.screen.pixels := by rw [left, done]; rfl
        rw [run_of_done polls first running done] at ended ⊢
        rw [passesLoop_of_done polls first running done]
        obtain ⟨frames, pixels⟩ := ih (faithful_invariant.toKept.idle passed) ended
        rw [frames, pixels, (Unseen.idle after).window, after.screen_idle, back?_runOnce polled done, ← leaves,
          e.frames_poll, List.getLast?_cons, List.filter_cons]
        constructor
        · by_cases due : (e.poll (polls first)).LookDue
          · rw [if_pos due, if_pos (decide_eq_true due), List.getLast?_cons]
            cases ((passesLoop polls (first + 1) passes after.idle).filter fun p => p.LookDue).getLast? <;> rfl
          · rw [if_neg due, if_neg (mt of_decide_eq_true due)]
        · cases (passesLoop polls (first + 1) passes after.idle).getLast? <;> rfl
    · rw [run_of_ended polls first running, passesLoop_of_ended polls first running]
      exact ⟨rfl, rfl⟩

/-- A loop at whose end the program has finished, though it had not at its beginning, has made a pass. -/
theorem exists_last_pass {polls : Nat → Poll} {first passes : Nat} (fresh : e.finished = false)
    (ended : (e.run polls first passes).1.result = .ok (some true)) :
    ∃ init last, passesLoop polls first passes e = init ++ [last] := by
  rcases List.eq_nil_or_concat' (passesLoop polls first passes e) with none | some
  · by_cases running : e.running = true
    · cases passes with
      | zero =>
        rw [run, if_pos running] at ended
        cases ended
      | succ passes =>
        rw [passesLoop, if_pos running] at none
        cases none
    · rw [run_of_ended polls first running, Attempt.result_done, fresh] at ended
      cases ended
  · exact some

/-- A program runs until it has finished. If a look at the display was due in the last pass, or if the screen is clean,
    the frame presented last is there and is the picture on the screen. However the passes fell, it is the picture
    that the latest of them left in which a look at the display was due, and there is none if there was no such pass. -/
theorem picture_of_run {s : Setup τ} {start : Emulator τ} (starts : ofProgram s = .ok start) {polls : Nat → Poll}
    {first passes : Nat} (ended : (start.run polls first passes).1.result = .ok (some true)) :
    let e := (start.run polls first passes).1.state
    let begun := passesLoop polls first passes start
    (∃ last, begun.getLast? = some last ∧
      (last.LookDue → e.window.frames.back? = some e.machine.screen.pixels)) ∧
    (e.machine.screen.dirty = false → e.window.frames.back? = some e.machine.screen.pixels) ∧
    e.window.frames.back? = (begun.filter fun p => p.LookDue).getLast?.map left := by
  intro e begun
  have started := started_of_ofProgram starts
  have faithful : start.Faithful := started.faithful rfl
  obtain ⟨frames, pixels⟩ := shown_of_run faithful ended
  have blank : start.window.frames.back? = none := by rw [started.frames]; rfl
  rw [blank, Option.or_none] at frames
  obtain ⟨init, last, same⟩ := exists_last_pass started.finished ended
  refine ⟨⟨last, ?_, fun due => ?_⟩, fun clean => ?_, frames⟩
  · show (passesLoop polls first passes start).getLast? = some last
    rw [same, List.getLast?_concat]
  · show (start.run polls first passes).1.state.window.frames.back? = some _
    rw [frames, pixels, same, List.filter_append, List.filter_singleton, decide_eq_true due, cond_true,
      List.getLast?_concat, List.getLast?_concat]
    rfl
  · have faithfully : e.Faithful := faithful_invariant.run polls first passes faithful
    rw [← faithfully.shown]
    exact faithfully.clean clean

/-! ### Pictures that are not seen -/

/-- A straight program finishes in a pass in which all its cycles are due, and one more. -/
theorem catchUp_of_straight {program : Array Byte} {e : Emulator Rat} {now : Rat} {n k budget : Nat}
    (straight : Straight program) (reads : e.machine.core.Reads program n) (words : n + k = program.size / 2)
    (nonneg : 0 ≤ e.interval) (reached : e.lastCycle + (k + 1) * e.interval ≤ now) (few : k < budget) :
    ∃ ran, catchUp now budget e = .done ran () ∧ ran.finished = true := by
  -- Every cycle takes one of the words that are left and one interval of the time.
  induction k generalizing e n budget with
  | zero =>
    obtain ⟨budget, rfl⟩ := Nat.exists_eq_add_one.2 few
    rw [Nat.cast_zero, zero_add, one_mul] at reached
    have due : e.due now := by
      show e.interval ≤ now - e.lastCycle
      linarith
    have stops := step_of_ended (e := e.paid) reads (Nat.le_of_eq words.symm)
    obtain ⟨-, journal, caught⟩ := catchUp_of_finished due (congrArg Attempt.result stops) budget
    exact ⟨_, caught, rfl⟩
  | succ k ih =>
    obtain ⟨budget, rfl⟩ := Nat.exists_eq_add_one.2 (Nat.zero_lt_of_lt few)
    have inside : 2 * n + 1 < program.size := by omega
    obtain ⟨ran, next, -⟩ := step_of_isStraight (e := e.paid) reads inside (straight n inside)
    obtain ⟨interval, lastCycle, -⟩ := e.paid.paced_step
    have more := mul_nonneg (Nat.cast_nonneg (α := Rat) k) nonneg
    push_cast at reached
    have due : e.due now := by
      show e.interval ≤ now - e.lastCycle
      linarith
    rw [catchUp_of_due due ran]
    refine ih next (by omega) (by rw [interval]; exact nonneg) ?_ (Nat.lt_of_succ_lt_succ few)
    rw [interval, lastCycle]
    show e.lastCycle + e.interval + (k + 1) * e.interval ≤ now
    linarith

/-- Draws a digit in the corner and ends, on a clock that gains the given time with each reading. -/
def drawing (tick : Rat) : Setup Rat :=
  ⟨#[0xA0, 0x50, 0xD0, 0x05], 512, .plain, .seeded 0, .ticking 0 tick, false, true⟩

theorem straight_drawing (tick : Rat) : Straight (drawing tick).program := by
  intro n inside
  have four : (drawing tick).program.size = 4 := rfl
  have two : n = 0 ∨ n = 1 := by omega
  rcases two with rfl | rfl
  · show (Instruction.decode (Word.ofBytes 0xA0 0x50)).isStraight = true
    decide
  · show (Instruction.decode (Word.ofBytes 0xD0 0x05)).isStraight = true
    decide

theorem exists_drawing (tick : Rat) : ∃ start : Emulator Rat, ofProgram (drawing tick) = .ok start := by
  have period : Time.period (drawing tick).rate = .ok (1 / 512 : Rat) := rfl
  exact exists_ofProgram (show 4 ≤ Core.room by decide) period

section
variable {tick : Rat} {start : Emulator Rat} (starts : ofProgram (drawing tick) = .ok start)
include starts

theorem clock_drawing : start.lastCycle = 3 * tick ∧ start.lastRefresh = 3 * tick ∧
    start.readClock.machine.clock.now = 4 * tick := by
  have started := started_of_ofProgram starts
  have thrice : (drawing tick).loaded.clock.read.now = 3 * tick := by
    show 0 + tick + tick + tick = 3 * tick
    ring
  refine ⟨started.lastCycle.trans thrice, started.lastRefresh.trans thrice, ?_⟩
  rw [readClock, started.machine]
  show 0 + tick + tick + tick + tick = 4 * tick
  ring

theorem lookDue_drawing : start.LookDue ↔ 1 / 60 ≤ tick := by
  obtain ⟨-, refresh, now⟩ := clock_drawing starts
  have sixtieth : (Time.sixtieth : Rat) = 1 / 60 := by decide +kernel
  rw [LookDue, now, refresh, sixtieth, not_lt]
  constructor
  · intro due
    linarith
  · intro due
    linarith

/-- Three cycles are due after three parts in 512 of a second, two for the words and one for the end. -/
theorem cycled_drawing (long : 3 / 512 ≤ tick) : ∃ ran, start.cycled = .done ran () ∧ ran.finished = true := by
  obtain ⟨last, -, now⟩ := clock_drawing starts
  have interval : start.interval = 1 / 512 := (Except.ok.inj (pace_of_ofProgram starts).1).symm
  have nonneg : 0 ≤ start.interval := by
    rw [interval]
    norm_num
  have reached : start.lastCycle + ((2 : Nat) + 1) * start.interval ≤ start.readClock.machine.clock.now := by
    rw [last, interval, now]
    push_cast
    linarith
  have reads : start.readClock.machine.core.Reads (drawing tick).program 0 :=
    (started_of_ofProgram starts).reads (show 4 ≤ Core.room by decide)
  have words : 0 + 2 = (drawing tick).program.size / 2 := show 0 + 2 = 4 / 2 by decide
  exact catchUp_of_straight (straight_drawing tick) reads words nonneg reached (show 2 < maxCatchUp by decide)

theorem run_drawing (long : 3 / 512 ≤ tick) :
    (start.run quiet 0 1).1.result = .ok (some true) ∧ passesLoop quiet 0 1 start = [start] := by
  obtain ⟨opens, -⟩ := devices_of_ofProgram starts
  obtain ⟨ran, cycled, finished⟩ := cycled_drawing starts long
  have running : start.running = true := by
    rw [Emulator.running, opens, (started_of_ofProgram starts).finished]
    rfl
  have done := runOnce_of_done cycled
  have noted := ran.finished_follow start.readClock.machine.clock.now
  rw [finished] at noted
  generalize ((ran.dropBacklog start.readClock.machine.clock.now).syncTimers.syncDisplay
    start.readClock.machine.clock.now).1 = after at done noted
  have ended : ¬ after.idle.running = true := by
    rw [running_idle, Emulator.running, noted]
    simp
  rw [run_of_done quiet 0 running done, run_of_ended quiet 1 ended, Attempt.result_done, finished_idle, noted,
    passesLoop_of_done quiet 0 running done, passesLoop_of_ended quiet 1 ended]
  exact ⟨rfl, rfl⟩

end

/-- With a sixtieth of a second to each reading the digit is seen. -/
theorem picture_of_run_drawing : ∃ start : Emulator Rat, ofProgram (drawing (1 / 60)) = .ok start ∧
    (start.run quiet 0 1).1.result = .ok (some true) ∧
    (start.run quiet 0 1).1.state.window.frames.back? = some (start.run quiet 0 1).1.state.machine.screen.pixels := by
  obtain ⟨start, starts⟩ := exists_drawing (1 / 60)
  obtain ⟨ended, only⟩ := run_drawing starts (by norm_num)
  obtain ⟨⟨last, isLast, shown⟩, -, -⟩ := picture_of_run starts ended
  rw [only, List.getLast?_singleton] at isLast
  cases isLast
  exact ⟨start, starts, ended, shown ((lookDue_drawing starts).2 le_rfl)⟩

/-- A loop that ends because the program has finished does not always show its picture, though the rate is positive, the
    clock never goes back and the window stays open. -/
theorem unseen_picture : ¬ ∀ (s : Setup Rat) (start : Emulator Rat) (polls : Nat → Poll) (passes : Nat),
    s.program.size ≤ Core.room → 0 < s.rate → s.clock.Forward → s.isOpen = true → (∀ n, (polls n).closes = false) →
    ofProgram s = .ok start → (start.run polls 0 passes).1.result = .ok (some true) →
      (start.run polls 0 passes).1.state.window.frames.back? =
        some (start.run polls 0 passes).1.state.machine.screen.pixels := by
  intro shown
  obtain ⟨start, starts⟩ := exists_drawing (3 / 512)
  obtain ⟨ended, only⟩ := run_drawing starts le_rfl
  have started := started_of_ofProgram starts
  have forward : (drawing (3 / 512)).clock.Forward := fun n now => by
    show now ≤ now + 3 / 512
    linarith
  have early : ¬ start.LookDue := by
    rw [lookDue_drawing starts]
    norm_num
  have seen := shown (drawing (3 / 512)) start quiet 1 (show 4 ≤ Core.room by decide) (show (0 : Int) < 512 by decide)
    forward rfl (fun _ => rfl) starts ended
  obtain ⟨frames, -⟩ := shown_of_run (started.faithful rfl) ended
  rw [frames, only, List.filter_singleton, decide_eq_false early, started.frames] at seen
  cases seen

end Emulator

end Chip8
