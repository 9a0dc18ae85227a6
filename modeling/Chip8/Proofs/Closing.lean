import Chip8.Launch
import Chip8.Proofs.Course

/-!
How a launch ends, and what becomes of its window. A launch with options that were read goes one of eight ways
(`Launch.Goes`, `Launch.goes_launch`). No window is opened for a program that cannot be read or does not fit, and one
that was opened is closed however the loop ended; but it stays open where the rate has no period, because the emulator
is started before anything sees to the window (`Launch.window_of_launch`, `Launch.window_left_open`).
-/
namespace Chip8
variable {τ : Type}

namespace Setup

theorem load_of_le {s : Setup τ} (fits : s.program.size ≤ Core.room) (journal : Journal) :
    ∃ told, (Machine.initial s.dialect s.random s.clock).load s.program journal = .ok (s.loaded, told) := by
  have under : ¬ Core.room < s.program.size := Nat.not_lt.2 fits
  simp only [Machine.load, Core.load, if_neg under]
  exact ⟨_, rfl⟩

theorem load_of_lt {s : Setup τ} (beyond : Core.room < s.program.size) (journal : Journal) :
    (Machine.initial s.dialect s.random s.clock).load s.program journal =
      .error (.tooLarge s.program.size Core.room) := by
  simp only [Machine.load, Machine.initial, Core.load, if_pos beyond]

end Setup

namespace Emulator
variable [Time τ]

theorem unpaced_of_start {m : Machine τ} {rate : Int} {window : Window} {speaker : Speaker} {journal : Journal}
    {e : FrequencyError} (failed : start m rate window speaker journal = .error e) :
    (Time.period rate : Except FrequencyError τ) = .error e := by
  unfold start at failed
  split at failed
  · cases failed
  next unpaced =>
    cases failed
    exact unpaced

/-- The end of the program does not stop the loop. -/
theorem abnormal_of_run (polls : Nat → Poll) {first passes : Nat} {e : Emulator τ} {f : Fault}
    (stopped : (e.run polls first passes).1.result = .error f) : f.abnormal = true := by
  induction passes generalizing first e with
  | zero =>
    unfold run at stopped
    split at stopped
    · cases stopped
    · cases stopped
  | succ passes ih =>
    by_cases running : e.running = true
    · rcases (e.poll (polls first)).runOnce_cases with ⟨g, abnormal, passed⟩ | ⟨_, goes, passed⟩
      · rw [run_of_stopped polls first running passed] at stopped
        cases stopped
        exact abnormal
      · rw [run_of_done polls first running passed] at stopped
        exact ih stopped
    · rw [run_of_ended polls first running] at stopped
      cases stopped

end Emulator

namespace Launch
open CommandLine
variable [Time τ] {r : Resources τ} {polls : Nat → Poll} {passes : Nat} {o : Options}

/-- The program with what the options ask for around it. -/
def Resources.setup (r : Resources τ) (o : Options) (program : Array Byte) : Setup τ :=
  ⟨program, o.rate.getD Options.defaultRate, o.dialect, r.random, r.clock, o.verbose, true⟩

/-- The emulator that a launch runs. -/
def Starts (r : Resources τ) (o : Options) (start : Emulator τ) : Prop :=
  ∃ program rate journal, r.read o.rom = .ok program ∧ program.size ≤ Core.room ∧ o.rate = some rate ∧
    Emulator.start (r.setup o program).loaded rate ⟨true, #[]⟩ .silent journal = .ok start

/-- The eight ways in which a launch goes, with its ending and the window that it opened: the path holds a NUL, the file
    cannot be read, the program does not fit; there is no rate, or it has no period; the loop ended, a fault stopped
    it, or the passes did not suffice. -/
inductive Goes (r : Resources τ) (polls : Nat → Poll) (passes : Nat) (o : Options) :
    Ending → Option (Session τ) → Prop where
  | nul (nul : r.read o.rom = .error .embeddedNul) : Goes r polls passes o .badPath none
  | unreadable {why : ReadError} (refused : r.read o.rom = .error (.refused why)) :
      Goes r polls passes o (.code 1) none
  | tooLarge {program : Array Byte} (read : r.read o.rom = .ok program) (beyond : Core.room < program.size) :
      Goes r polls passes o (.code 1) none
  | noRate {program : Array Byte} (read : r.read o.rom = .ok program) (fits : program.size ≤ Core.room)
      (missing : o.rate = none) : Goes r polls passes o .noRate (some ⟨o.scale, o.mute, 0, 0, none⟩)
  | badRate {program : Array Byte} {rate : Int} {e : FrequencyError} (read : r.read o.rom = .ok program)
      (fits : program.size ≤ Core.room) (given : o.rate = some rate)
      (unpaced : (Time.period rate : Except FrequencyError τ) = .error e) :
      Goes r polls passes o (.badRate e) (some ⟨o.scale, o.mute, 0, 0, none⟩)
  | ended {start after : Emulator τ} {finished : Bool} {polled : Nat} (starts : Starts r o start)
      (ran : start.run polls 0 passes = (⟨after, .ok (some finished)⟩, polled)) :
      Goes r polls passes o (.code 0) (some ⟨o.scale, o.mute, polled, 1, some after⟩)
  | failed {start after : Emulator τ} {f : Fault} {polled : Nat} (starts : Starts r o start)
      (ran : start.run polls 0 passes = (⟨after, .error f⟩, polled)) :
      Goes r polls passes o (.code 1) (some ⟨o.scale, o.mute, polled, 1, some after⟩)
  | unfinished {start after : Emulator τ} {polled : Nat} (starts : Starts r o start)
      (ran : start.run polls 0 passes = (⟨after, .ok none⟩, polled)) :
      Goes r polls passes o .unfinished (some ⟨o.scale, o.mute, polled, 1, some after⟩)

/-- A window is opened for a machine with its program, and the emulator is started in it if the rate has a period. -/
theorem openWindow_cases {program : Array Byte} (read : r.read o.rom = .ok program) (fits : program.size ≤ Core.room)
    (journal : Journal) :
    (∃ report, openWindow o (r.setup o program).loaded journal = .error report ∧
      Goes r polls passes o report.ending report.session) ∨
    ∃ start, openWindow o (r.setup o program).loaded journal = .ok (o, start) ∧ Starts r o start := by
  unfold openWindow
  dsimp only
  cases given : o.rate with
  | none => exact .inl ⟨_, rfl, .noRate read fits given⟩
  | some rate =>
    dsimp only
    cases started : Emulator.start (r.setup o program).loaded rate ⟨true, #[]⟩ .silent journal with
    | error e =>
      refine .inl ⟨_, rfl, ?_⟩
      exact .badRate read fits given (Emulator.unpaced_of_start started)
    | ok start => exact .inr ⟨start, rfl, program, rate, journal, read, fits, given, started⟩

/-- Before the loop begins, a launch has ended or an emulator is started. -/
theorem prepare_cases (r : Resources τ) (polls : Nat → Poll) (passes : Nat) (o : Options) :
    (∃ report, prepare r o = .error report ∧ Goes r polls passes o report.ending report.session) ∨
    ∃ start, prepare r o = .ok (o, start) ∧ Starts r o start := by
  unfold prepare
  dsimp only
  cases read : r.read o.rom with
  | error e =>
    cases e with
    | embeddedNul => exact .inl ⟨_, rfl, .nul read⟩
    | refused why => exact .inl ⟨_, rfl, .unreadable read⟩
  | ok program =>
    let journal := (Journal.empty o.verbose).remark ["Loading ROM:", o.rom]
    rcases Nat.lt_or_ge Core.room program.size with beyond | fits
    · have refused : (Machine.initial o.dialect r.random r.clock).load program journal = .error _ :=
        Setup.load_of_lt (s := r.setup o program) beyond journal
      dsimp only
      rw [refused]
      refine .inl ⟨_, rfl, ?_⟩
      exact .tooLarge read beyond
    · obtain ⟨told, loaded⟩ := Setup.load_of_le (s := r.setup o program) fits journal
      have loaded : (Machine.initial o.dialect r.random r.clock).load program journal = .ok (_, told) := loaded
      dsimp only
      rw [loaded]
      exact openWindow_cases read fits told

theorem goes_conclude {start : Emulator τ} (starts : Starts r o start) :
    Goes r polls passes o
      (conclude o (start.run polls 0 passes).2 (start.run polls 0 passes).1).ending
      (conclude o (start.run polls 0 passes).2 (start.run polls 0 passes).1).session := by
  cases ran : start.run polls 0 passes with | mk attempt polled =>
    obtain ⟨after, result⟩ := attempt
    cases result with
    | error f => exact .failed starts ran
    | ok value =>
      cases value with
      | none => exact .unfinished starts ran
      | some finished => exact .ended starts ran

/-- A launch with options that were read goes one of the eight ways. -/
theorem goes_launch {args : List String} (parsed : parse args = .ok o) :
    Goes r polls passes o (launch r polls passes args).ending (launch r polls passes args).session := by
  unfold launch
  rw [parsed]
  dsimp only
  rcases prepare_cases r polls passes o with ⟨report, stopped, goes⟩ | ⟨start, prepared, starts⟩
  · rw [stopped]
    exact goes
  · rw [prepared]
    exact goes_conclude starts

/-- The program of a launch can be read, and it fits. -/
def Loads (r : Resources τ) (o : Options) : Prop := ∃ program, r.read o.rom = .ok program ∧ program.size ≤ Core.room

/-- The options give a rate, and it has a period. -/
def Paced (τ : Type) [Time τ] (o : Options) : Prop :=
  ∃ rate, o.rate = some rate ∧ ∃ interval : τ, Time.period rate = .ok interval

/-- In binary64 a rate has a period unless it is zero or too large. -/
theorem paced_float_iff (o : Options) :
    Paced Float o ↔ ∃ rate, o.rate = some rate ∧ rate ≠ 0 ∧ (Float.ofInt rate).isInf = false := by
  constructor
  · rintro ⟨rate, given, interval, period⟩
    refine ⟨rate, given, ?_⟩
    simp only [Time.period] at period
    split at period
    · cases period
    next nonzero =>
      split at period
      · cases period
      next finite => exact ⟨nonzero, Bool.eq_false_iff.2 finite⟩
  · rintro ⟨rate, given, nonzero, finite⟩
    refine ⟨rate, given, 1.0 / Float.ofInt rate, ?_⟩
    simp only [Time.period, if_neg nonzero, finite, Bool.false_eq_true, if_false]

theorem Starts.loads {start : Emulator τ} (starts : Starts r o start) : Loads r o := by
  obtain ⟨program, _, _, read, fits, _, _⟩ := starts
  exact ⟨program, read, fits⟩

theorem Starts.paced {start : Emulator τ} (starts : Starts r o start) : Paced τ o := by
  obtain ⟨_, rate, _, _, _, given, started⟩ := starts
  exact ⟨rate, given, start.interval, (Emulator.pace_of_start started).1⟩

namespace Goes
variable {ending : Ending} {session : Option (Session τ)}

theorem session_eq_none_iff (goes : Goes r polls passes o ending session) : session = none ↔ ¬ Loads r o := by
  cases goes with
  | nul failed | unreadable failed =>
    refine iff_of_true rfl ?_
    rintro ⟨program, read, _⟩
    rw [failed] at read
    cases read
  | tooLarge read beyond =>
    refine iff_of_true rfl ?_
    rintro ⟨program, again, fits⟩
    rw [read] at again
    cases again
    exact Nat.not_le.2 beyond fits
  | noRate read fits | badRate read fits => exact iff_of_false (Option.some_ne_none _) (not_not_intro ⟨_, read, fits⟩)
  | ended starts | failed starts | unfinished starts =>
    exact iff_of_false (Option.some_ne_none _) (not_not_intro starts.loads)

theorem ending_of_none (goes : Goes r polls passes o ending none) :
    ending = .code 1 ∨ r.read o.rom = .error .embeddedNul ∧ ending = .badPath := by
  cases goes with
  | nul nul => exact .inr ⟨nul, rfl⟩
  | unreadable | tooLarge => exact .inl rfl

/-- A window that was opened stays open if the rate has no period. -/
theorem of_not_paced {s : Session τ} (goes : Goes r polls passes o ending (some s)) (unpaced : ¬ Paced τ o) :
    s.closed = 0 ∧ s.emulator = none ∧ (o.rate = none ∧ ending = .noRate ∨ ∃ rate e, o.rate = some rate ∧
      (Time.period rate : Except FrequencyError τ) = .error e ∧ ending = .badRate e) := by
  cases goes with
  | noRate _ _ missing => exact ⟨rfl, rfl, .inl ⟨missing, rfl⟩⟩
  | badRate _ _ given failed => exact ⟨rfl, rfl, .inr ⟨_, _, given, failed, rfl⟩⟩
  | ended starts | failed starts | unfinished starts => exact absurd starts.paced unpaced

/-- A window that was opened is closed if the rate has a period, and the ending tells how the loop ended. -/
theorem of_paced {s : Session τ} (goes : Goes r polls passes o ending (some s)) (paced : Paced τ o) :
    s.closed = 1 ∧ ∃ start, Starts r o start ∧
      let ran := (start.run polls 0 passes).1
      s.emulator = some ran.state ∧
      ((∃ finished, ran.result = .ok (some finished) ∧ ending = .code 0) ∨
        (∃ f, f.abnormal = true ∧ ran.result = .error f ∧ ending = .code 1) ∨
        ran.result = .ok none ∧ ending = .unfinished) := by
  obtain ⟨rate, given, interval, period⟩ := paced
  cases goes with
  | noRate _ _ missing =>
    rw [given] at missing
    cases missing
  | badRate _ _ again failed =>
    rw [given] at again
    cases again
    rw [period] at failed
    cases failed
  | @ended start after finished _ starts ran =>
    refine ⟨rfl, start, starts, ?_⟩
    rw [ran]
    exact ⟨rfl, .inl ⟨finished, rfl, rfl⟩⟩
  | @failed start after f _ starts ran =>
    have abnormal : f.abnormal = true := Emulator.abnormal_of_run polls (by rw [ran])
    refine ⟨rfl, start, starts, ?_⟩
    rw [ran]
    exact ⟨rfl, .inr (.inl ⟨f, abnormal, rfl, rfl⟩)⟩
  | @unfinished start after _ starts ran =>
    refine ⟨rfl, start, starts, ?_⟩
    rw [ran]
    exact ⟨rfl, .inr (.inr ⟨rfl, rfl⟩)⟩

end Goes

/-- The window of a launch whose options were read. It is opened exactly if the program can be read and fits; else the
    launch ends with code 1, unless the path holds a NUL. A window that was opened is closed, whatever ends the loop:
    with code 0 where the loop ends by itself, and with code 1 where it is stopped by a fault, which is never the end of
    the program. But where the rate is missing or has no period, the error goes through with the window left open. -/
theorem window_of_launch {args : List String} (parsed : parse args = .ok o) (r : Resources τ) (polls : Nat → Poll)
    (passes : Nat) :
    let report := launch r polls passes args
    (report.session = none ↔ ¬ Loads r o) ∧
    (report.session = none → report.ending = .code 1 ∨ r.read o.rom = .error .embeddedNul ∧ report.ending = .badPath) ∧
    ∀ s, report.session = some s →
      (Paced τ o → s.closed = 1 ∧ ∃ start, Starts r o start ∧
        let ran := (start.run polls 0 passes).1
        s.emulator = some ran.state ∧
        ((∃ finished, ran.result = .ok (some finished) ∧ report.ending = .code 0) ∨
          (∃ f, f.abnormal = true ∧ ran.result = .error f ∧ report.ending = .code 1) ∨
          ran.result = .ok none ∧ report.ending = .unfinished)) ∧
      (¬ Paced τ o → s.closed = 0 ∧ s.emulator = none ∧
        (o.rate = none ∧ report.ending = .noRate ∨ ∃ rate e, o.rate = some rate ∧
          (Time.period rate : Except FrequencyError τ) = .error e ∧ report.ending = .badRate e)) := by
  intro report
  have goes : Goes r polls passes o report.ending report.session := goes_launch parsed
  refine ⟨goes.session_eq_none_iff, ?_, ?_⟩
  · intro unopened
    rw [unopened] at goes
    exact goes.ending_of_none
  · intro s opened
    rw [opened] at goes
    exact ⟨goes.of_paced, goes.of_not_paced⟩

/-- At a negative rate a return without a call stops the loop, if not the passes run out before; either way the window
    is closed. -/
theorem window_of_launch_negative :
    parse ["--hz", "-5", "p"] = .ok { Options.ofRom "p" with rate := some (-5) } ∧
    ∃ s, (launch (⟨fun _ => .ok #[0x00, 0xEE], .still 0, .seeded 0⟩ : Resources Rat) (fun _ => ⟨none, false⟩) 50
      ["--hz", "-5", "p"]).session = some s ∧ s.closed = 1 := by
  have parsed : parse ["--hz", "-5", "p"] = .ok { Options.ofRom "p" with rate := some (-5) } := by rfl
  obtain ⟨unopened, _, opened⟩ := window_of_launch parsed
    (⟨fun _ => .ok #[0x00, 0xEE], .still 0, .seeded 0⟩ : Resources Rat) (fun _ => ⟨none, false⟩) 50
  have loads : Loads (⟨fun _ => .ok #[0x00, 0xEE], .still 0, .seeded 0⟩ : Resources Rat)
      { Options.ofRom "p" with rate := some (-5) } := ⟨#[0x00, 0xEE], rfl, by decide⟩
  have paced : Paced Rat { Options.ofRom "p" with rate := some (-5) } := ⟨-5, rfl, 1 / ((-5 : Int) : Rat), rfl⟩
  obtain ⟨s, session⟩ := Option.ne_none_iff_exists'.1 (mt unopened.1 (not_not_intro loads))
  exact ⟨parsed, s, session, ((opened s session).1 paced).1⟩

/-- A window that was opened may stay open: at rate zero nothing closes it. -/
theorem window_left_open :
    ¬ ∀ (r : Resources Float) (polls : Nat → Poll) (passes : Nat) (args : List String) (o : Options),
      parse args = .ok o → ∀ s, (launch r polls passes args).session = some s → s.closed = 1 := by
  intro closes
  have parsed : parse ["--hz", "0", "p"] = .ok { Options.ofRom "p" with rate := some 0 } := by rfl
  have opened : (launch (⟨fun _ => .ok #[0x12, 0x00], .still 0, .seeded 0⟩ : Resources Float)
      (fun _ => ⟨none, false⟩) 50 ["--hz", "0", "p"]).session = some ⟨some 10, false, 0, 0, none⟩ := by rfl
  have closed := closes _ _ _ _ _ parsed _ opened
  cases closed

end Launch
end Chip8
