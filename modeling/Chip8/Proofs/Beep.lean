import Chip8.Proofs.Countdown
import Chip8.Proofs.Course
import Chip8.Proofs.Pace

/-!
When the beep sounds. In a pass that comes to its end, and whenever the timers tick, the speaker follows the sound timer
(`Speaker.follow`); no other act but the loop touches it (`Emulator.speaker_act`). The beep therefore sounds after each
of these exactly if the timer runs, and it is started and stopped no more and no less often than they ask for
(`Emulator.speaker_of_course`). A loop that comes to its end stops the beep. A loop that a fault ends leaves it as it
was when its last pass began, which is on if the sound timer was running then (`Emulator.speaker_of_run`).
-/
namespace Chip8
variable {τ : Type}

/-! ### Speakers -/

theorem Timer.active_iff (t : Timer τ) : t.active = true ↔ 0 < t.count.toNat := by
  rw [active, bne_iff_ne, Nat.pos_iff_ne_zero, Ne, Ne, ← BitVec.toNat_inj]
  rfl

/-- One tick does not stop a timer that is at two or more. -/
theorem Timer.active_tick [Time τ] {t : Timer τ} (left : 2 ≤ t.count.toNat) (now : τ) :
    (t.tick now).1.active = true := by
  have one := t.toNat_count_tick now
  rw [active_iff]
  split at one
  · omega
  · omega

namespace Speaker

/-- The speaker plays while the timer runs, and stops playing once it does not. -/
def follow (s : Speaker) (timer : Timer τ) : Speaker :=
  if timer.active then s.play else if s.playing then s.stop else s

theorem follow_eq (s : Speaker) (timer : Timer τ) : s.follow timer = {
    playing := timer.active
    plays := s.plays + if timer.active then 1 else 0
    stops := s.stops + if !timer.active && s.playing then 1 else 0 } := by
  obtain ⟨playing, plays, stops⟩ := s
  unfold follow
  cases timer.active with
  | true => rfl
  | false => cases playing <;> rfl

end Speaker

namespace Act

/-- Passes, and ticks of the timers. -/
def follows : Act τ → Bool
  | .runOnce | .syncTimers => true
  | _ => false

/-- The loop makes any number of passes. -/
def loops : Act τ → Bool
  | .run _ _ _ => true
  | _ => false

end Act

namespace Emulator

/-- The beep sounds exactly while the sound timer runs. -/
def InTune (e : Emulator τ) : Prop := e.speaker.playing = e.machine.sound.active

namespace InTune
variable {e after : Emulator τ}

theorem of_follow (follows : after.speaker = e.speaker.follow after.machine.sound) : after.InTune := by
  rw [InTune, follows, Speaker.follow_eq]

theorem poll (inTune : e.InTune) (p : Poll) : (e.poll p).InTune := by
  obtain ⟨held, closes⟩ := p
  cases held with
  | none => exact inTune
  | some names => exact inTune

end InTune

variable [Time τ]

theorem devices_of_start {m : Machine τ} {rate : Int} {window : Window} {speaker : Speaker} {journal : Journal}
    {e : Emulator τ} (started : start m rate window speaker journal = .ok e) :
    e.window = window ∧ e.speaker = speaker := by
  unfold start at started
  split at started
  · cases started
    exact ⟨rfl, rfl⟩
  · cases started

theorem devices_of_ofProgram {s : Setup τ} {e : Emulator τ} (started : ofProgram s = .ok e) :
    e.window = ⟨s.isOpen, #[]⟩ ∧ e.speaker = .silent := by
  obtain ⟨_, journal, begun⟩ := start_of_ofProgram started
  exact devices_of_start begun

/-! ### One act -/

theorem devices_syncDisplay (e : Emulator τ) (now : τ) :
    (e.syncDisplay now).1.speaker = e.speaker ∧ (e.syncDisplay now).1.window.isOpen = e.window.isOpen := by
  have looked := e.looked_syncDisplay now
  generalize e.syncDisplay now = after at looked ⊢
  cases looked <;> exact ⟨rfl, rfl⟩

/-- A pass whose cycles ran: the timers tick and the speaker follows. -/
theorem runOnce_of_cycled {e ran : Emulator τ} (cycled : e.cycled = .done ran ()) :
    ∃ after, e.runOnce = .done after (!ran.finished) ∧ after.running = (e.window.isOpen && !ran.finished) ∧
      after.machine.core = ran.machine.core ∧
      after.machine.sound = (ran.machine.sound.tick ran.machine.clock.read.read.now).1 ∧
      after.speaker = e.speaker.follow after.machine.sound := by
  let now := e.readClock.machine.clock.now
  have unseen := e.unseen_cycled
  rw [cycled, Attempt.state_done] at unseen
  obtain ⟨lastCycle, dropped⟩ := ran.dropBacklog_eq now
  let ticked := { ran with lastCycle }.syncTimers
  obtain ⟨speaker, isOpen⟩ := ticked.devices_syncDisplay now
  obtain ⟨dirty, machine⟩ := ticked.machine_syncDisplay now
  have finished : (ticked.syncDisplay now).1.finished = ran.finished := ticked.finished_syncDisplay now
  refine ⟨(ticked.syncDisplay now).1, ?_, ?_, ?_, ?_, ?_⟩
  · rw [runOnce_of_done cycled, dropped]
  · rw [running, finished, isOpen, ← unseen.window]
    rfl
  · rw [machine]
    rfl
  · rw [machine]
    rfl
  · rw [speaker, machine, ← unseen.speaker]
    rfl

/-- A pass that a fault stops leaves the speaker alone; else it follows the sound timer as the pass leaves it. -/
theorem speaker_runOnce (e : Emulator τ) :
    (∃ after f, f.abnormal = true ∧ e.runOnce = .stopped after f ∧ after.speaker = e.speaker) ∨
    ∃ after goes, e.runOnce = .done after goes ∧ after.speaker = e.speaker.follow after.machine.sound := by
  rcases e.runOnce_cases with ⟨f, abnormal, stopped⟩ | ⟨cycled, _⟩
  · exact .inl ⟨_, f, abnormal, stopped, e.unseen_cycled.speaker⟩
  · obtain ⟨after, done, _, _, _, follows⟩ := runOnce_of_cycled cycled
    exact .inr ⟨after, _, done, follows⟩

/-- The act is a pass or a tick of the timers, and comes to its end. -/
def heard (e : Emulator τ) (a : Act τ) : Bool := a.follows && (e.act a).result.isOk

/-- Such an act ends while the sound timer runs. -/
def beeps (e : Emulator τ) (a : Act τ) : Bool := e.heard a && 0 < (e.act a).state.machine.sound.count.toNat

/-- Such an act ends with the sound timer at zero, and the beep sounded before it. -/
def hushes (e : Emulator τ) (a : Act τ) : Bool :=
  e.heard a && (e.act a).state.machine.sound.count.toNat = 0 && e.speaker.playing

theorem speaker_act (e : Emulator τ) {a : Act τ} (single : a.loops = false) :
    (e.act a).state.speaker = if e.heard a then e.speaker.follow (e.act a).state.machine.sound else e.speaker := by
  cases a with
  | run => cases single
  | runOnce =>
    rcases e.speaker_runOnce with ⟨after, f, _, stopped, same⟩ | ⟨after, goes, done, follows⟩
    · rw [heard, act, stopped]
      exact same
    · rw [heard, act, done]
      exact follows
  | syncTimers => rfl
  | syncDisplay now => exact (e.devices_syncDisplay now).1
  | step => exact (Unseen.step e).speaker
  | idle => exact (Unseen.idle e).speaker
  | catchUp now budget => exact (Unseen.catchUp now budget e).speaker
  | dropBacklog now => exact (Unseen.dropBacklog e now).speaker
  | exec i => exact (Unseen.exec e i).speaker
  | readClock | paint | clear | hold => rfl

theorem playing_of_heard {e : Emulator τ} {a : Act τ} (single : a.loops = false) (heard : e.heard a = true) :
    (e.act a).state.speaker.playing = true ↔ 0 < (e.act a).state.machine.sound.count.toNat := by
  rw [speaker_act e single, if_pos heard, Speaker.follow_eq, Timer.active_iff]

theorem plays_act (e : Emulator τ) {a : Act τ} (single : a.loops = false) :
    (e.act a).state.speaker.plays = e.speaker.plays + if e.beeps a then 1 else 0 := by
  rw [speaker_act e single]
  cases heard : e.heard a with
  | false => simp [beeps, heard]
  | true => simp [beeps, heard, Speaker.follow_eq, Timer.active_iff]

theorem stops_act (e : Emulator τ) {a : Act τ} (single : a.loops = false) :
    (e.act a).state.speaker.stops = e.speaker.stops + if e.hushes a then 1 else 0 := by
  rw [speaker_act e single]
  cases heard : e.heard a with
  | false => simp [hushes, heard]
  | true =>
    have zero : (e.act a).state.machine.sound.active = false ↔ (e.act a).state.machine.sound.count.toNat = 0 := by
      rw [← Bool.not_eq_true, Timer.active_iff, Nat.not_lt, Nat.le_zero]
    simp [hushes, heard, Speaker.follow_eq, zero]

/-! ### Courses -/

/-- Any acts but the loop, on an emulator whose speaker has been silent. After every pass that comes to its end and
    every tick of the timers the beep sounds exactly if the sound timer is above zero. It was started once for each of
    them that left the timer so, and stopped once for each that left it at zero when the beep sounded before. -/
theorem speaker_of_course {start : Emulator τ} {acts : List (Act τ)} (silent : start.speaker = .silent)
    (single : ∀ a ∈ acts, a.loops = false) :
    (∀ p ∈ start.course acts, p.1.heard p.2 = true →
      ((p.1.act p.2).state.speaker.playing = true ↔ 0 < (p.1.act p.2).state.machine.sound.count.toNat)) ∧
    (start.actAll acts).speaker.plays = (start.course acts).countP (fun p => p.1.beeps p.2) ∧
    (start.actAll acts).speaker.stops = (start.course acts).countP (fun p => p.1.hushes p.2) := by
  have each : ∀ p ∈ start.course acts, p.2.loops = false := fun p member => single p.2 (mem_of_mem_course member)
  refine ⟨fun p member => playing_of_heard (each p member), ?_⟩
  refine course_induction (P := fun acts e => e.speaker.plays = (start.course acts).countP (fun p => p.1.beeps p.2) ∧
    e.speaker.stops = (start.course acts).countP (fun p => p.1.hushes p.2)) (Q := fun _ a => a.loops = false) ?_ ?_ each
  · rw [silent]
    exact ⟨rfl, rfl⟩
  · rintro acts a ⟨plays, stops⟩ single
    rw [course_concat, List.countP_append, List.countP_append, List.countP_singleton, List.countP_singleton,
      plays_act _ single, stops_act _ single, plays, stops]
    exact ⟨rfl, rfl⟩

theorem speaker_of_course_set : ∃ start : Emulator Rat, ofProgram (.plain #[]) = .ok start ∧
    let acts : List (Act Rat) := [.exec (.setByte 0 3), .exec (.setSound 0), .syncTimers]
    (start.actAll acts).speaker.playing = true ∧ (start.actAll acts).speaker.plays = 1 := by
  obtain ⟨start, starts, _⟩ := exists_plain #[] (by decide)
  obtain ⟨_, silent⟩ := devices_of_ofProgram starts
  let acts : List (Act Rat) := [.exec (.setByte 0 3), .exec (.setSound 0), .syncTimers]
  have single : ∀ a ∈ acts, a.loops = false := by simp [acts, Act.loops]
  obtain ⟨follows, plays, _⟩ := speaker_of_course silent single
  let set := ((start.exec (.setByte 0 3)).state.exec (.setSound 0)).state
  have calls : start.course acts = [(start, .exec (.setByte 0 3)),
      ((start.exec (.setByte 0 3)).state, .exec (.setSound 0)), (set, .syncTimers)] := rfl
  have count : set.machine.sound.count = 3 := Registers.get_set_self ..
  have left : 2 ≤ set.machine.sound.count.toNat := by rw [count]; decide
  have positive := (Timer.active_iff _).1 (Timer.active_tick left set.machine.clock.read.read.now)
  have quiet (e : Emulator Rat) (i : Instruction) : e.beeps (.exec i) = false := rfl
  have beeps : set.beeps .syncTimers = true := decide_eq_true positive
  refine ⟨start, starts, ?_, ?_⟩
  · exact (follows (set, .syncTimers) (by rw [calls]; simp) rfl).2 positive
  · rw [plays, calls]
    simp [quiet, beeps]

/-! ### The loop -/

/-- A loop that comes to its end stops the speaker. -/
theorem playing_of_run {e : Emulator τ} {finished : Bool} {polls : Nat → Poll} {first passes : Nat}
    (ended : (e.run polls first passes).1.result = .ok (some finished)) :
    (e.run polls first passes).1.state.speaker.playing = false := by
  induction passes generalizing first e with
  | zero =>
    by_cases running : e.running = true
    · rw [run, if_pos running] at ended
      cases ended
    · rw [run_of_ended polls first running]
      rfl
  | succ passes ih =>
    by_cases running : e.running = true
    · rcases (e.poll (polls first)).speaker_runOnce with ⟨after, f, _, stopped, _⟩ | ⟨after, goes, done, _⟩
      · rw [run_of_stopped polls first running stopped] at ended
        cases ended
      · rw [run_of_done polls first running done] at ended ⊢
        exact ih ended
    · rw [run_of_ended polls first running]
      rfl

theorem running_idle (e : Emulator τ) : e.idle.running = e.running := by
  obtain ⟨clock, idled⟩ := e.idle_eq
  rw [idled]
  rfl

namespace InTune
variable {e : Emulator τ}

theorem idle (inTune : e.InTune) : e.idle.InTune := by
  obtain ⟨clock, idled⟩ := e.idle_eq
  rw [idled]
  exact inTune

theorem of_ofProgram {s : Setup τ} {start : Emulator τ} (starts : ofProgram s = .ok start) : start.InTune := by
  obtain ⟨_, silent⟩ := devices_of_ofProgram starts
  rw [InTune, silent, (started_of_ofProgram starts).machine]
  rfl

/-- A loop that a fault ends was in its last pass, which left the speaker alone. -/
theorem last_of_run {f : Fault} {polls : Nat → Poll} {first passes : Nat} (inTune : e.InTune)
    (failed : (e.run polls first passes).1.result = .error f) :
    f.abnormal = true ∧ ∃ last, (passesLoop polls first passes e).getLast? = some last ∧
      last.runOnce = .stopped (e.run polls first passes).1.state f ∧
      (e.run polls first passes).1.state.speaker = last.speaker ∧ last.InTune := by
  induction passes generalizing first e with
  | zero =>
    unfold Emulator.run at failed
    split at failed
    · cases failed
    · cases failed
  | succ passes ih =>
    by_cases running : e.running = true
    · have polled := inTune.poll (polls first)
      rcases (e.poll (polls first)).speaker_runOnce with ⟨after, g, abnormal, stopped, same⟩ | ⟨after, _, done, follows⟩
      · rw [run_of_stopped polls first running stopped] at failed ⊢
        cases failed
        rw [passesLoop_of_stopped polls first running stopped]
        exact ⟨abnormal, _, rfl, stopped, same, polled⟩
      · rw [run_of_done polls first running done] at failed ⊢
        obtain ⟨abnormal, last, isLast, rest⟩ := ih (of_follow follows).idle failed
        rw [passesLoop_of_done polls first running done, List.getLast?_cons, isLast]
        exact ⟨abnormal, last, rfl, rest⟩
    · rw [run_of_ended polls first running] at failed
      cases failed

end InTune

/-! ### Code without jumps -/

/-- So many words of the program were executed, and the counter went from one to the next. -/
structure Along (start e : Emulator Rat) (n : Nat) : Prop where
  core : e.machine.core = { start.machine.core with pc := ⟨0x200 + (2 * n : Nat), start.machine.core.pc.limit⟩ }
  interval : e.interval = start.interval
  lastCycle : e.lastCycle = start.lastCycle + n * start.interval
  finished : e.finished = start.finished

namespace Along
variable {s : Setup Rat} {start e : Emulator Rat} {n : Nat} {now : Rat}

theorem due_iff (along : start.Along e n) : e.due now ↔ start.lastCycle + (n + 1) * start.interval ≤ now := by
  rw [due, along.interval, along.lastCycle]
  constructor
  · intro due
    linarith
  · intro reached
    linarith

/-- The counter stands at a word of the program, and there is room for it. -/
theorem nextWord (along : start.Along e n) (starts : ofProgram s = .ok start) (inside : 2 * n + 1 < s.program.size) :
    e.machine.core.pc.addr + 2 ≤ e.machine.core.pc.limit ∧
      e.machine.nextWord = Word.ofBytes s.program[2 * n] s.program[2 * n + 1] := by
  obtain ⟨fits, _⟩ := start_of_ofProgram starts
  have started := started_of_ofProgram starts
  rw [Machine.nextWord, along.core]
  refine ⟨?_, started.word fits inside⟩
  have limit : start.machine.core.pc.limit = 0x200 + s.program.size := by rw [started.machine]; rfl
  show (0x200 + (2 * n : Nat) + 2 : Int) ≤ start.machine.core.pc.limit
  omega

/-- The next word is executed if it is due. -/
theorem catchUp (along : start.Along e n) (starts : ofProgram s = .ok start) {i : Instruction} {after : Machine Rat}
    (due : start.lastCycle + (n + 1) * start.interval ≤ now) (budget : Nat) (inside : 2 * n + 1 < s.program.size)
    (word : .decode (Word.ofBytes s.program[2 * n] s.program[2 * n + 1]) = i)
    (ran : (e.machine.ahead 2).execute i = .done after ()) (core : after.core = (e.machine.ahead 2).core) :
    ∃ next, Emulator.catchUp now (budget + 1) e = Emulator.catchUp now budget next ∧ next.machine = after ∧
      start.Along next (n + 1) := by
  obtain ⟨room, reads⟩ := along.nextWord starts inside
  rw [← word, ← reads] at ran
  have stepped := step_of_done (e := e.paid) room ran
  obtain ⟨interval, lastCycle, finished⟩ := e.paid.paced_step
  refine ⟨_, catchUp_of_due (along.due_iff.2 due) (by rw [stepped, Attempt.result_done]) budget, ?_, ?_, ?_, ?_, ?_⟩
  · rw [stepped, Attempt.state_done]
  · rw [stepped, Attempt.state_done]
    show after.core = _
    rw [core, Machine.core_ahead, along.core]
    simp [Nat.mul_succ, Int.add_assoc]
  · exact interval.trans along.interval
  · rw [lastCycle, paid, along.lastCycle, along.interval]
    push_cast
    ring
  · exact finished.trans along.finished

end Along

/-- A return without a call stops the pass that it is due in. -/
theorem runOnce_of_ret {e : Emulator Rat} (due : e.readClock.due e.readClock.machine.clock.now)
    (room : e.machine.core.pc.addr + 2 ≤ e.machine.core.pc.limit) (word : .decode e.machine.nextWord = Instruction.ret)
    (empty : e.machine.core.stack.addresses = []) :
    ∃ after, e.runOnce = .stopped after .stackUnderflow ∧ after.speaker = e.speaker := by
  have stopped := step_of_stopped (e := e.readClock.paid) room (by
    rw [show e.readClock.paid.machine.nextWord = e.machine.nextWord from rfl, word]
    exact Machine.execute_ret_of_nil empty)
  have cycled : e.cycled = .stopped e.readClock.paid.step.state .stackUnderflow := by
    rw [Emulator.cycled, maxCatchUp, catchUp, if_pos due]
    have paid : { e.readClock with lastCycle := e.readClock.lastCycle + e.readClock.interval } = e.readClock.paid := rfl
    simp only [paid, stopped, Attempt.result_stopped]
  refine ⟨_, ?_, e.unseen_cycled.speaker⟩
  rw [runOnce_eq, cycled, Attempt.andThen_stopped]
  rfl

/-! ### A beep that is left on -/

/-- Sets the sound timer, and then returns without a call. Two seconds pass with each reading of the clock, and cycles
    are a second apart. -/
def unbalanced : Setup Rat := ⟨#[0x60, 0x05, 0xF0, 0x18, 0x00, 0xEE], 1, .plain, .seeded 0, .ticking 0 2, false, true⟩

theorem exists_unbalanced : ∃ start : Emulator Rat, ofProgram unbalanced = .ok start := by
  have period : Time.period unbalanced.rate = .ok (1 : Rat) := by decide +kernel
  exact exists_ofProgram (by decide) period

/-- The window stays open, and no key is held. -/
def quiet (_ : Nat) : Poll := ⟨none, false⟩

section
variable {start : Emulator Rat} (starts : ofProgram unbalanced = .ok start)
include starts

theorem interval_unbalanced : start.interval = 1 := by
  obtain ⟨period, _⟩ := pace_of_ofProgram starts
  exact (Except.ok.inj period).symm.trans (by decide +kernel)

/-- Two cycles are due in the first pass, and they set the sound timer. -/
theorem cycled_unbalanced :
    ∃ ran, start.cycled = .done ran () ∧ start.Along ran 2 ∧ ran.machine.sound.count = 5 := by
  have started := started_of_ofProgram starts
  have interval := interval_unbalanced starts
  have last : start.lastCycle = 6 := started.lastCycle.trans (by decide +kernel)
  have now : start.readClock.machine.clock.now = 8 := by
    show start.machine.clock.read.now = 8
    rw [started.machine]
    decide +kernel
  have along : start.Along start.readClock 0 := by
    refine ⟨?_, rfl, by simp [readClock], rfl⟩
    rw [readClock, started.machine]
    rfl
  have due : start.lastCycle + ((0 : Nat) + 1) * start.interval ≤ 8 := by rw [last, interval]; norm_num
  have next : start.lastCycle + ((1 : Nat) + 1) * start.interval ≤ 8 := by rw [last, interval]; norm_num
  obtain ⟨mid, first, set, along⟩ := along.catchUp starts (i := .setByte 0 5) due 9 (by decide) (by decide) rfl rfl
  obtain ⟨ran, second, sounds, along⟩ := along.catchUp starts (i := .setSound 0) next 8 (by decide) (by decide) rfl rfl
  have late : ¬ ran.due 8 := by
    rw [along.due_iff, last, interval]
    norm_num
  refine ⟨ran, ?_, along, ?_⟩
  · rw [cycled, now, maxCatchUp, first, second, catchUp, if_neg late]
  · rw [sounds, set]
    exact Registers.get_set_self ..

/-- The beep sounds after that pass, and the loop goes on with the return. -/
theorem runOnce_unbalanced : ∃ after, start.runOnce = .done after true ∧ after.running = true ∧
    after.machine.core = { start.machine.core with pc := ⟨0x204, start.machine.core.pc.limit⟩ } ∧
    after.speaker.playing = true := by
  obtain ⟨ran, cycled, along, count⟩ := cycled_unbalanced starts
  obtain ⟨opens, _⟩ := devices_of_ofProgram starts
  obtain ⟨after, done, running, core, sound, follows⟩ := runOnce_of_cycled cycled
  have goes : ran.finished = false := along.finished.trans (started_of_ofProgram starts).finished
  rw [goes] at done running
  refine ⟨after, done, ?_, core.trans along.core, ?_⟩
  · rw [running, opens]
    rfl
  · have left : 2 ≤ ran.machine.sound.count.toNat := by rw [count]; decide
    rw [follows, Speaker.follow_eq, sound]
    exact Timer.active_tick left _

/-- The return is due in the next pass, as the clock goes on with every reading. -/
theorem due_unbalanced {after : Emulator Rat} (done : start.runOnce = .done after true) :
    after.idle.readClock.due after.idle.readClock.machine.clock.now := by
  have started := started_of_ofProgram starts
  have reading (n : Nat) (now : Rat) : start.machine.clock.reading n now = now + 2 := by
    rw [started.machine]
    rfl
  have forward : start.machine.clock.Forward := fun n now => by
    rw [reading]
    linarith
  have onward := Onward.runOnce forward
  rw [done, Attempt.state_done] at onward
  have since := onward.trans (.of_beside (.idle (onward.clock.forward forward)))
  have ordered := since.ordered (by rw [started.lastCycle, started.machine])
  show after.idle.interval ≤ after.idle.machine.clock.reading _ after.idle.machine.clock.now - after.idle.lastCycle
  rw [since.interval, interval_unbalanced starts, since.clock.reading, reading]
  linarith

theorem run_unbalanced :
    ∃ after, (start.run quiet 0 2).1 = .stopped after .stackUnderflow ∧ after.speaker.playing = true := by
  have started := started_of_ofProgram starts
  obtain ⟨opens, _⟩ := devices_of_ofProgram starts
  have running : start.running = true := by
    rw [Emulator.running, opens, started.finished]
    rfl
  obtain ⟨first, done, goes, core, playing⟩ := runOnce_unbalanced starts
  have same : first.idle.machine.core = first.machine.core := congrArg Interior.core (Around.idle first).interior
  have room : first.idle.machine.core.pc.addr + 2 ≤ first.idle.machine.core.pc.limit := by
    rw [same, core, started.machine]
    exact le_refl (0x206 : Int)
  have word : .decode first.idle.machine.nextWord = Instruction.ret := by
    rw [Machine.nextWord, same, core]
    show Instruction.decode (start.machine.core.memory.word (0x200 + (4 : Nat))) = .ret
    rw [started.word (i := 4) (by decide) (by decide)]
    decide
  have empty : first.idle.machine.core.stack.addresses = [] := by
    rw [same, core, started.machine]
    rfl
  obtain ⟨after, stopped, speaker⟩ := runOnce_of_ret (due_unbalanced starts done) room word empty
  refine ⟨after, ?_, ?_⟩
  · rw [run_of_done quiet 0 running done, run_of_stopped quiet 1 (first.running_idle.trans goes) stopped]
  · rw [speaker, (Unseen.idle first).speaker]
    exact playing

end

/-! ### How the loop leaves the beep -/

/-- The loop of an emulator with a program, whatever the window's events and the clock. If it comes to its end, whether
    the window was closed or the program has finished, the beep is off. If a fault goes through it, an unbalanced return
    or a call too deep, the beep is left as it was when the last pass began: it still sounds if the sound timer was
    above zero then. -/
theorem speaker_of_run {s : Setup τ} {start : Emulator τ} (starts : ofProgram s = .ok start) (polls : Nat → Poll)
    (first passes : Nat) :
    let ran := (start.run polls first passes).1
    (∀ finished, ran.result = .ok (some finished) → ran.state.speaker.playing = false) ∧
    (∀ f, ran.result = .error f → f.abnormal = true ∧
      ∃ last, (passesLoop polls first passes start).getLast? = some last ∧ last.runOnce = .stopped ran.state f ∧
        (ran.state.speaker.playing = true ↔ 0 < last.machine.sound.count.toNat)) := by
  intro ran
  refine ⟨fun finished => playing_of_run, fun f failed => ?_⟩
  obtain ⟨abnormal, last, isLast, stopped, same, inTune⟩ := (InTune.of_ofProgram starts).last_of_run failed
  refine ⟨abnormal, last, isLast, stopped, ?_⟩
  rw [same, inTune, Timer.active_iff]

theorem speaker_of_run_unbalanced : ∃ start last : Emulator Rat, ofProgram unbalanced = .ok start ∧
    last.runOnce.result = .error .stackUnderflow ∧ 0 < last.machine.sound.count.toNat := by
  obtain ⟨start, starts⟩ := exists_unbalanced
  obtain ⟨after, stopped, playing⟩ := run_unbalanced starts
  obtain ⟨_, failed⟩ := speaker_of_run starts quiet 0 2
  rw [stopped] at failed
  obtain ⟨_, last, _, left, sounds⟩ := failed .stackUnderflow rfl
  exact ⟨start, last, starts, by rw [left]; rfl, sounds.1 playing⟩

/-- A loop that ends does not always leave the beep off. -/
theorem playing_after_run : ¬ ∀ (s : Setup Rat) (start : Emulator Rat) (polls : Nat → Poll) (passes : Nat),
    ofProgram s = .ok start → (start.run polls 0 passes).1.result ≠ .ok none →
      (start.run polls 0 passes).1.state.speaker.playing = false := by
  intro off
  obtain ⟨start, starts⟩ := exists_unbalanced
  obtain ⟨after, stopped, playing⟩ := run_unbalanced starts
  have silent := off unbalanced start quiet 2 starts (by rw [stopped]; nofun)
  rw [stopped, Attempt.state_stopped, playing] at silent
  cases silent

end Emulator
end Chip8
