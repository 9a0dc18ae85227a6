import Chip8.Proofs.Countdown
import Chip8.Proofs.Course
import Chip8.Proofs.Pace

/-!
What is done sixty times a second is never ahead of the clock. A frame is presented no sooner than a sixtieth of a
second after the one before it, also where looks at the display that present nothing come between them, because every
look that is due starts the next sixtieth (`Emulator.Refreshed.look`). The frames and the times at which they are
presented are those of a course on a clock that never goes back (`Emulator.Refreshed.of_course`); together with the
counts of a timer they are bounded in `Emulator.never_ahead`.
-/
namespace Chip8
namespace Emulator
variable {start e : Emulator Rat} {times : List Rat}

/-! ### The times of the frames -/

/-- The time of the frame that the pass presents which begins here, if it presents one. -/
def shownInPass (e : Emulator Rat) : List Rat :=
  if e.runOnce.state.frameCount = e.frameCount then [] else [e.machine.clock.read.now]

/-- The times of the frames that an act presents. -/
def shownAt (e : Emulator Rat) : Act Rat → List Rat
  | .syncDisplay now => if (e.syncDisplay now).2 then [now] else []
  | a => (e.passes a).flatMap shownInPass

theorem shownAt_runOnce (e : Emulator Rat) : e.shownAt .runOnce = e.shownInPass := List.flatMap_singleton ..

/-- The times of the frames that are presented in a course. -/
def presented (e : Emulator Rat) (acts : List (Act Rat)) : List Rat := (e.course acts).flatMap fun p => p.1.shownAt p.2

/-- The act takes the time from the clock, and a look at the display takes the time that the clock shows. -/
def Timely (e : Emulator Rat) (a : Act Rat) : Prop :=
  e.Driven a ∧ ∀ now, a = .syncDisplay now → now = e.machine.clock.now

theorem frameCount_syncDisplay (e : Emulator Rat) (now : Rat) :
    (e.syncDisplay now).1.frameCount = e.frameCount + if (e.syncDisplay now).2 then 1 else 0 := by
  have looked := e.looked_syncDisplay now
  generalize e.syncDisplay now = after at looked ⊢
  cases looked <;> rfl

/-! ### One look after the other -/

/-- The frames were presented at these times, each a sixtieth or more after the one before it, and in all they took no
    more than a sixtieth each of the time up to the latest look that was due. -/
structure Refreshed (start : Emulator Rat) (times : List Rat) (e : Emulator Rat) : Prop where
  clock : start.machine.clock.Since e.machine.clock
  frames : e.window.frames.size = times.length
  frameCount : e.frameCount = times.length
  spaced : times.Pairwise fun before now => Time.sixtieth ≤ now - before
  past : ∀ time ∈ times, time ≤ e.lastRefresh
  account : times.length * Time.sixtieth ≤ e.lastRefresh - start.lastRefresh
  shown : e.lastRefresh ≤ e.machine.clock.now

namespace Refreshed

theorem follow {after : Emulator Rat} (refreshed : Refreshed start times e)
    (frames : after.window.frames = e.window.frames) (frameCount : after.frameCount = e.frameCount)
    (lastRefresh : after.lastRefresh = e.lastRefresh) (clock : e.machine.clock.Since after.machine.clock) :
    Refreshed start times after where
  clock := refreshed.clock.trans clock
  frames := by rw [frames]; exact refreshed.frames
  frameCount := frameCount.trans refreshed.frameCount
  spaced := refreshed.spaced
  past := by rw [lastRefresh]; exact refreshed.past
  account := by rw [lastRefresh]; exact refreshed.account
  shown := by rw [lastRefresh]; exact refreshed.shown.trans clock.now_le

theorem unseen {after : Emulator Rat} (refreshed : Refreshed start times e) (unseen : e.Unseen after)
    (clock : e.machine.clock.Since after.machine.clock) : Refreshed start times after :=
  refreshed.follow (congrArg Window.frames unseen.window) unseen.frameCount unseen.lastRefresh clock

/-- A look at a time that the clock has shown presents nothing, or a frame a sixtieth after the latest look that was
    due, and so after every frame before it. -/
theorem look {now : Rat} (refreshed : Refreshed start times e) (reached : now ≤ e.machine.clock.now) :
    Refreshed start (times ++ if (e.syncDisplay now).2 then [now] else []) (e.syncDisplay now).1 := by
  obtain ⟨clock, frames, frameCount, spaced, past, account, shown⟩ := refreshed
  have positive := Time.sixtieth_pos
  have looked := e.looked_syncDisplay now
  generalize e.syncDisplay now = after at looked ⊢
  cases looked with
  | early => simpa using ⟨clock, frames, frameCount, spaced, past, account, shown⟩
  | clean due | same due =>
    have later : ∀ time ∈ times, time ≤ now := fun time member => by linarith [past time member]
    simpa using ⟨clock, frames, frameCount, spaced, later, by linarith, reached⟩
  | presented due =>
    have apart : ∀ time ∈ times, Time.sixtieth ≤ now - time := fun time member => by linarith [past time member]
    refine ⟨clock, ?_, ?_, ?_, ?_, ?_, reached⟩
    · simp [frames]
    · simp [frameCount]
    · simpa [List.pairwise_append] using ⟨spaced, apart⟩
    · simp only [if_true, List.forall_mem_append, List.forall_mem_singleton]
      exact ⟨fun time member => by linarith [apart time member], le_rfl⟩
    · simp only [if_true, List.length_append, List.length_singleton, Nat.cast_succ]
      linarith

/-! ### Passes -/

theorem poll (refreshed : Refreshed start times e) (p : Poll) : Refreshed start times (e.poll p) := by
  refine refreshed.follow ?_ rfl rfl (Beside.poll e p).clock
  unfold Emulator.poll
  split
  · rfl
  · rfl

theorem idle (refreshed : Refreshed start times e) (forward : e.machine.clock.Forward) : Refreshed start times e.idle :=
  refreshed.unseen (.idle e) (Beside.idle forward).clock

/-- A pass looks at the display at the time at which it began, once its cycles ran. -/
theorem runOnce (refreshed : Refreshed start times e) (forward : e.machine.clock.Forward) :
    Refreshed start (times ++ e.shownInPass) e.runOnce.state := by
  have read := Clock.Since.read forward
  have onward := Onward.catchUp (e := e.readClock) (read.forward forward) maxCatchUp le_rfl
  have ran : Refreshed start times e.cycled.state := refreshed.unseen e.unseen_cycled (read.trans onward.clock)
  rcases e.runOnce_cases with ⟨f, _, stopped⟩ | ⟨_, goes, done⟩
  · have nothing : e.shownInPass = [] := by
      rw [shownInPass, stopped]
      exact if_pos e.unseen_cycled.frameCount
    rw [nothing, stopped, List.append_nil]
    exact ran
  · let now := e.readClock.machine.clock.now
    let ticked := (e.cycled.state.dropBacklog now).syncTimers
    have dropped := Onward.dropBacklog (e := e.cycled.state) onward.clock.now_le
    have since := onward.clock.trans dropped.clock
    have ticks := (Beside.syncTimers ((read.trans since).forward forward)).clock
    have ticking : Refreshed start times ticked :=
      (ran.unseen (.dropBacklog _ now) dropped.clock).follow rfl rfl rfl ticks
    have looked := ticking.look (since.trans ticks).now_le
    have same : e.shownInPass = if (ticked.syncDisplay now).2 then [now] else [] := by
      have before : ticked.frameCount = e.frameCount := (e.unseen_cycled.trans (.dropBacklog _ now)).frameCount
      have count := frameCount_syncDisplay ticked now
      rw [before] at count
      rw [shownInPass, done, Attempt.state_done, count]
      cases (ticked.syncDisplay now).2 with
      | false => exact if_pos rfl
      | true => exact if_neg (Nat.succ_ne_self _)
    rw [done, Attempt.state_done, same]
    exact looked

theorem run (refreshed : Refreshed start times e) (forward : start.machine.clock.Forward) (polls : Nat → Poll)
    (first passes : Nat) :
    Refreshed start (times ++ (passesLoop polls first passes e).flatMap shownInPass)
      (e.run polls first passes).1.state := by
  induction passes generalizing first e times with
  | zero =>
    rw [passesLoop, List.flatMap_nil, List.append_nil]
    unfold Emulator.run
    split
    · exact refreshed
    · exact refreshed.follow rfl rfl rfl (.of_eq rfl)
  | succ passes ih =>
    by_cases running : e.running = true
    · have polled := refreshed.poll (polls first)
      have passed := polled.runOnce (polled.clock.forward forward)
      cases ran : (e.poll (polls first)).runOnce with | mk after result =>
        rw [ran] at passed
        cases result with
        | ok _ =>
          rw [run_of_done polls first running ran, passesLoop_of_done polls first running ran, List.flatMap_cons,
            ← List.append_assoc]
          exact ih (passed.idle (passed.clock.forward forward)) (first + 1)
        | error f =>
          rw [run_of_stopped polls first running ran, passesLoop_of_stopped polls first running ran,
            List.flatMap_singleton]
          exact passed
    · rw [run_of_ended polls first running, passesLoop_of_ended polls first running, List.flatMap_nil, List.append_nil]
      exact refreshed.follow rfl rfl rfl (.of_eq rfl)

/-! ### Courses -/

theorem act (refreshed : Refreshed start times e) (forward : start.machine.clock.Forward) {a : Act Rat}
    (timely : e.Timely a) : Refreshed start (times ++ e.shownAt a) (e.act a).state := by
  have nothing {after : Emulator Rat} (same : Refreshed start times after) : Refreshed start (times ++ []) after := by
    rw [List.append_nil]
    exact same
  have ahead := refreshed.clock.forward forward
  obtain ⟨driven, looks⟩ := timely
  cases a with
  | step => exact nothing (refreshed.unseen (.step e) (clock_step ahead))
  | runOnce =>
    rw [shownAt_runOnce]
    exact refreshed.runOnce ahead
  | syncTimers =>
    have ticked : Refreshed start times e.syncTimers := refreshed.follow rfl rfl rfl (Beside.syncTimers ahead).clock
    exact nothing ticked
  | syncDisplay now => exact refreshed.look (looks now rfl).le
  | idle => exact nothing (refreshed.idle ahead)
  | run polls first passes => exact refreshed.run forward polls first passes
  | readClock =>
    have read : Refreshed start times e.readClock := refreshed.follow rfl rfl rfl (.read ahead)
    exact nothing read
  | catchUp | dropBacklog => cases driven
  | exec i => exact nothing (refreshed.unseen (.exec e i) (Beside.exec ahead i).clock)
  | paint x y rows | clear | hold keyboard => exact nothing (refreshed.follow rfl rfl rfl (.of_eq rfl))

theorem of_course (refreshed : Refreshed start [] start) (forward : start.machine.clock.Forward) {acts : List (Act Rat)}
    (each : ∀ p ∈ start.course acts, p.1.Timely p.2) : Refreshed start (start.presented acts) (start.actAll acts) := by
  refine course_induction (P := fun acts e => Refreshed start (start.presented acts) e) refreshed ?_ each
  intro acts a before timely
  have after := before.act forward timely
  rw [presented, course_concat, List.flatMap_append, List.flatMap_singleton]
  exact after

end Refreshed

theorem Started.refreshed {machine : Machine Rat} (started : Started machine start) : Refreshed start [] start where
  clock := .of_eq rfl
  frames := by rw [started.frames]; rfl
  frameCount := started.frameCount
  spaced := .nil
  past := List.forall_mem_nil _
  account := by simp
  shown := by rw [started.lastRefresh, started.machine]

/-- A pass takes its look at the time at which it begins, if it comes to it. -/
theorem lastRefresh_runOnce (shown : e.lastRefresh ≤ e.machine.clock.now) (forward : e.machine.clock.Forward) :
    e.runOnce.state.lastRefresh ≤ e.machine.clock.read.now := by
  have reached : e.lastRefresh ≤ e.machine.clock.read.now := shown.trans (forward _ _)
  rcases e.runOnce_cases with ⟨f, _, stopped⟩ | ⟨_, goes, done⟩
  · rw [stopped, Attempt.state_stopped, e.unseen_cycled.lastRefresh]
    exact reached
  · rw [done, Attempt.state_done]
    let ticked := (e.cycled.state.dropBacklog e.machine.clock.read.now).syncTimers
    have before : ticked.lastRefresh = e.lastRefresh := (e.unseen_cycled.trans (.dropBacklog _ _)).lastRefresh
    have looked := ticked.looked_syncDisplay e.machine.clock.read.now
    show (ticked.syncDisplay e.machine.clock.read.now).1.lastRefresh ≤ e.machine.clock.read.now
    generalize ticked.syncDisplay e.machine.clock.read.now = after at looked ⊢
    cases looked with
    | early => rw [before]; exact reached
    | clean | same | presented => exact le_rfl

/-- A timer that was set at a time, and an emulator that was started at one, on clocks that never go back, and whatever
    was done to them. The timer holds a byte that goes down by the counts made since then, each tick makes one count or
    none, and they take no more than a sixtieth each of the time that has passed. The frames presented since the start
    take no more than that either, at the time that the clock shows as at the one at which the next pass begins, and
    any two of them are a sixtieth or more apart. -/
theorem never_ahead :
    (∀ {t : Timer Rat} {value : Int} {since now : Rat} {counted : Nat}, Timer.History t value since counted now →
      t.count.toNat ≤ 255 ∧ t.count.toNat + counted = (value % 256).toNat ∧
      ∀ next, now ≤ next → counted * Time.sixtieth ≤ next - since ∧
        (t.tick next).1.count.toNat + (if (t.tick next).2 then 1 else 0) = t.count.toNat) ∧
    (∀ {machine : Machine Rat} {rate : Int} {isOpen : Bool} {speaker : Speaker} {journal : Journal}
      {start : Emulator Rat} {acts : List (Act Rat)},
      Emulator.start machine rate ⟨isOpen, #[]⟩ speaker journal = .ok start → machine.clock.Forward →
      (∀ p ∈ start.course acts, p.1.Timely p.2) →
      let e := start.actAll acts
      let since := machine.clock.read.now
      e.window.frames.size = e.frameCount ∧ (start.presented acts).length = e.frameCount ∧
      (start.presented acts).Pairwise (fun before now => Time.sixtieth ≤ now - before) ∧
      e.frameCount * Time.sixtieth ≤ e.machine.clock.now - since ∧
      e.runOnce.state.frameCount * Time.sixtieth ≤ e.machine.clock.read.now - since) := by
  constructor
  · intro t value since now counted history
    obtain ⟨account, past⟩ := history.mul_le
    refine ⟨Nat.le_of_lt_succ t.count.isLt, history.toNat_add, fun next later => ⟨?_, t.toNat_count_tick next⟩⟩
    linarith
  · intro machine rate isOpen speaker journal start acts starts forward each e since
    have started := started_of_start starts
    have forward : start.machine.clock.Forward := by
      rw [started.machine]
      exact (Clock.Since.read forward).forward forward
    have refreshed := started.refreshed.of_course forward each
    have ahead := refreshed.clock.forward forward
    have passed := refreshed.runOnce ahead
    have look := lastRefresh_runOnce refreshed.shown ahead
    refine ⟨refreshed.frames.trans refreshed.frameCount.symm, refreshed.frameCount.symm, refreshed.spaced, ?_, ?_⟩
    · have account := refreshed.account
      have shown := refreshed.shown
      rw [started.lastRefresh] at account
      rw [refreshed.frameCount]
      exact account.trans (sub_le_sub_right shown _)
    · have account := passed.account
      rw [started.lastRefresh] at account
      rw [passed.frameCount]
      exact account.trans (sub_le_sub_right look _)

theorem never_ahead_first : (2 * Time.sixtieth : Rat) ≤ 1 / 25 - 0 ∧ ∃ start : Emulator Rat,
    ofProgram ⟨#[], 1, .plain, .seeded 0, .ticking (0 : Rat) (1 / 32), false, true⟩ = .ok start ∧
    (start.actAll [.readClock, .syncDisplay (1 / 8)]).frameCount = 1 ∧ (1 * Time.sixtieth : Rat) ≤ 1 / 8 - 3 / 32 := by
  obtain ⟨counts, frames⟩ := never_ahead
  constructor
  · have first := (Timer.History.made 5 0).tick (show (0 : Rat) ≤ 1 / 50 by decide +kernel)
    have four : (Timer.start (.ofInt 8 5) (0 : Rat)).tick (1 / 50) = (⟨4, 1 / 50⟩, true) := by decide +kernel
    rw [four] at first
    have second := first.tick (show (1 / 50 : Rat) ≤ 1 / 25 by decide +kernel)
    have three : (Timer.mk 4 (1 / 50 : Rat)).tick (1 / 25) = (⟨3, 1 / 25⟩, true) := by decide +kernel
    rw [three] at second
    exact ((counts second).2.2 (1 / 25) le_rfl).1
  · let s : Setup Rat := ⟨#[], 1, .plain, .seeded 0, .ticking 0 (1 / 32), false, true⟩
    have period : Time.period s.rate = .ok (1 : Rat) := by decide +kernel
    obtain ⟨start, starts⟩ := exists_ofProgram (s := s) (by decide) period
    obtain ⟨_, journal, begun⟩ := start_of_ofProgram starts
    have started := started_of_ofProgram starts
    have forward : s.loaded.clock.Forward := fun _ now => le_add_of_nonneg_right (by decide +kernel)
    have reading : start.readClock.machine.clock.now = 1 / 8 := by
      show start.machine.clock.read.now = 1 / 8
      rw [started.machine]
      decide +kernel
    have since : s.loaded.clock.read.now = 3 / 32 := by decide +kernel
    have each : ∀ p ∈ start.course [.readClock, .syncDisplay (1 / 8)], p.1.Timely p.2 := by
      refine List.forall_mem_cons.2 ⟨⟨trivial, nofun⟩, List.forall_mem_singleton.2 ⟨trivial, ?_⟩⟩
      rintro now ⟨⟩
      exact reading.symm
    obtain ⟨_, _, _, elapsed, _⟩ := frames begun forward each
    have looks : start.actAll [.readClock, .syncDisplay (1 / 8)] = (start.readClock.syncDisplay (1 / 8)).1 := rfl
    have count : (start.readClock.syncDisplay (1 / 8)).1.frameCount = 1 := by
      have due : ¬ 1 / 8 - start.lastRefresh < Time.sixtieth := by
        rw [started.lastRefresh, since]
        decide +kernel
      have dirty : start.machine.screen.dirty = true := by rw [started.machine]; rfl
      have unshown : start.shown ≠ some start.machine.screen.pixels := by rw [started.shown]; nofun
      rw [syncDisplay_of_touched (e := start.readClock) due dirty unshown]
      exact congrArg (· + 1) started.frameCount
    have clock : (start.readClock.syncDisplay (1 / 8)).1.machine.clock.now = 1 / 8 := by
      obtain ⟨dirty, machine⟩ := start.readClock.machine_syncDisplay (1 / 8)
      rw [machine]
      exact reading
    rw [looks, count, clock, since, Nat.cast_one] at elapsed
    exact ⟨start, starts, by rw [looks]; exact count, elapsed⟩

end Emulator
end Chip8
