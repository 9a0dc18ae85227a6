import Chip8.Proofs.Dialects
import Chip8.Proofs.Outcome

/-!
Two emulators that differ in dialect and journal only (`Emulator.Twin`). They stay so, and answer alike, through every
act in which nothing divides the dialects (`Emulator.Twin.outcome`), whatever is done to the switches of their
journals. In an act in which something does, their cycles go side by side up to that cycle (`Abreast`). So a dialect
shows only where it is asked for (`Emulator.twin_of_course`).
-/
namespace Chip8
variable {τ : Type}

/-- The members of two lists are related in turn, up to the first that lacks the property; what follows it may be
    anything. -/
inductive Abreast {α β : Type} (R : α → β → Prop) (P : α → Prop) : List α → List β → Prop where
  | nil : Abreast R P [] []
  | cons {x : α} {y : β} {xs : List α} {ys : List β} (first : R x y) (rest : P x → Abreast R P xs ys) :
      Abreast R P (x :: xs) (y :: ys)

namespace Abreast
variable {α β : Type} {R : α → β → Prop} {P : α → Prop} {xs xs' : List α} {ys ys' : List β}

theorem append (abreast : Abreast R P xs ys) (rest : (∀ x ∈ xs, P x) → Abreast R P xs' ys') :
    Abreast R P (xs ++ xs') (ys ++ ys') := by
  induction abreast with
  | nil => exact rest nofun
  | cons first _ ih => exact .cons first fun here => ih here fun all => rest (List.forall_mem_cons.2 ⟨here, all⟩)

/-- If all have the property, all are related. -/
theorem forall₂ (abreast : Abreast R P xs ys) (all : ∀ x ∈ xs, P x) : List.Forall₂ R xs ys := by
  induction abreast with
  | nil => exact .nil
  | cons first _ ih =>
    obtain ⟨here, later⟩ := List.forall_mem_cons.1 all
    exact .cons first (ih here later)

end Abreast

namespace Emulator
variable {d d' : Dialect}

/-- The first emulator has the one dialect, and the second is the same with the other, and with a journal of its
    own. -/
structure Twin (d d' : Dialect) (e other : Emulator τ) : Prop where
  dialect : e.machine.dialect = d
  other : ∃ journal, other = { e with machine := e.machine.inDialect d', journal }

/-- Two attempts come to the same and leave twins. -/
structure Concur (d d' : Dialect) {α : Type} (attempt attempt' : Attempt (Emulator τ) α) : Prop where
  result : attempt'.result = attempt.result
  state : Twin d d' attempt.state attempt'.state

/-- The cycle that begins here executes nothing that divides the dialects. -/
def Shares (d d' : Dialect) (e : Emulator τ) : Prop :=
  ¬ e.PastEnd → ¬ (Instruction.decode e.machine.nextWord).Divides d d' e.machine.registers

/-- Nothing that the act brings from outside divides the dialects. -/
def SharesOutside (d d' : Dialect) (e : Emulator τ) : Act τ → Prop
  | .exec i => ¬ i.Divides d d' e.machine.registers
  | .paint x y rows => d.wrapSprites ≠ d'.wrapSprites → ¬ Screen.Crosses x y rows.length
  | _ => True

theorem Concur.andThen {α β : Type} {attempt attempt' : Attempt (Emulator τ) α}
    {next next' : Emulator τ → α → Attempt (Emulator τ) β} (concur : Concur d d' attempt attempt')
    (onward : ∀ e other a, attempt = .done e a → Twin d d' e other → Concur d d' (next e a) (next' other a)) :
    Concur d d' (attempt.andThen next) (attempt'.andThen next') := by
  obtain ⟨e, result⟩ := attempt
  obtain ⟨other, result'⟩ := attempt'
  obtain ⟨rfl, twin⟩ := concur
  cases result' with
  | ok a => exact onward e other a rfl twin
  | error f => exact ⟨rfl, twin⟩

namespace Twin
variable {e other : Emulator τ}

/-! ### Surroundings -/

theorem switch (twin : Twin d d' e other) (move move' : Bool → Bool) :
    Twin d d' (e.switch move) (other.switch move') := by
  obtain ⟨own, journal, rfl⟩ := twin
  exact ⟨own, _, rfl⟩

theorem poll (twin : Twin d d' e other) (p : Poll) : Twin d d' (e.poll p) (other.poll p) := by
  obtain ⟨own, journal, rfl⟩ := twin
  obtain ⟨held, closes⟩ := p
  cases held with
  | none => exact ⟨own, journal, rfl⟩
  | some names => exact ⟨own, journal, rfl⟩

theorem stop (twin : Twin d d' e other) :
    Twin d d' { e with speaker := e.speaker.stop } { other with speaker := other.speaker.stop } := by
  obtain ⟨own, journal, rfl⟩ := twin
  exact ⟨own, journal, rfl⟩

theorem running (twin : Twin d d' e other) : other.running = e.running := by
  obtain ⟨_, _, rfl⟩ := twin
  rfl

theorem finished (twin : Twin d d' e other) : other.finished = e.finished := by
  obtain ⟨_, _, rfl⟩ := twin
  rfl

theorem readClock (twin : Twin d d' e other) : Twin d d' e.readClock other.readClock := by
  obtain ⟨own, journal, rfl⟩ := twin
  exact ⟨own, journal, rfl⟩

theorem now_readClock (twin : Twin d d' e other) :
    other.readClock.machine.clock.now = e.readClock.machine.clock.now := by
  obtain ⟨_, _, rfl⟩ := twin
  rfl

/-- An instruction that does not divide the dialects leaves twins, and stops both or neither. -/
theorem exec (twin : Twin d d' e other) {i : Instruction} (shared : ¬ i.Divides d d' e.machine.registers) :
    Concur d d' (e.exec i) (other.exec i) := by
  obtain ⟨rfl, journal, rfl⟩ := twin
  have own := e.machine.dialect_execute i
  have same := Machine.execute_inDialect shared
  cases ran : e.machine.execute i with | mk after result =>
    rw [ran] at own same
    cases result with
    | ok _ =>
      rw [exec_of_done ran, exec_of_done (e := { e with machine := e.machine.inDialect d', journal }) same]
      exact ⟨rfl, own, _, rfl⟩
    | error f =>
      rw [exec_of_stopped ran, exec_of_stopped (e := { e with machine := e.machine.inDialect d', journal }) same]
      exact ⟨rfl, own, journal, rfl⟩

/-- So does a cycle. -/
theorem step (twin : Twin d d' e other) (shared : e.Shares d d') : Concur d d' e.step other.step := by
  by_cases beyond : e.PastEnd
  · obtain ⟨own, journal, rfl⟩ := twin
    rw [step_of_lt beyond, step_of_lt (e := { e with machine := e.machine.inDialect d', journal }) beyond]
    exact ⟨rfl, own, journal, rfl⟩
  have room : e.machine.core.pc.addr + 2 ≤ e.machine.core.pc.limit := Int.not_lt.1 beyond
  have fetched : Twin d d' (e.withMachine (e.machine.ahead 2)) (other.withMachine (other.machine.ahead 2)) := by
    obtain ⟨own, journal, rfl⟩ := twin
    exact ⟨own, journal, rfl⟩
  have ran := fetched.exec (shared beyond)
  have word : other.machine.nextWord = e.machine.nextWord := by
    obtain ⟨_, _, rfl⟩ := twin
    rfl
  have room' : other.machine.core.pc.addr + 2 ≤ other.machine.core.pc.limit := by
    obtain ⟨_, _, rfl⟩ := twin
    exact room
  rw [step_of_le room, step_of_le room', word]
  refine ran.andThen ?_
  rintro after _ _ _ ⟨own, journal, rfl⟩
  exact ⟨rfl, own, journal, rfl⟩

variable [Time τ]

theorem syncTimers (twin : Twin d d' e other) : Twin d d' e.syncTimers other.syncTimers := by
  obtain ⟨own, journal, rfl⟩ := twin
  exact ⟨own, journal, rfl⟩

theorem due_iff (twin : Twin d d' e other) (now : τ) : other.due now ↔ e.due now := by
  obtain ⟨_, _, rfl⟩ := twin
  exact .rfl

theorem dropBacklog (twin : Twin d d' e other) (now : τ) : Twin d d' (e.dropBacklog now) (other.dropBacklog now) := by
  unfold Emulator.dropBacklog
  by_cases due : e.due now
  · rw [if_pos due, if_pos ((twin.due_iff now).2 due)]
    obtain ⟨own, journal, rfl⟩ := twin
    exact ⟨own, journal, rfl⟩
  · rw [if_neg due, if_neg (mt (twin.due_iff now).1 due)]
    exact twin

theorem syncDisplay (twin : Twin d d' e other) (now : τ) :
    (other.syncDisplay now).2 = (e.syncDisplay now).2 ∧ Twin d d' (e.syncDisplay now).1 (other.syncDisplay now).1 := by
  obtain ⟨own, journal, rfl⟩ := twin
  by_cases early : now - e.lastRefresh < Time.sixtieth
  · simp only [Emulator.syncDisplay, early, if_true, true_and]
    exact ⟨own, journal, rfl⟩
  cases touched : e.machine.screen.dirty with
  | false =>
    simp only [Emulator.syncDisplay, Machine.inDialect, early, touched, Bool.not_false, if_true, if_false, true_and]
    exact ⟨own, journal, rfl⟩
  | true =>
    simp only [Emulator.syncDisplay, Machine.inDialect, early, touched, Bool.not_true, Bool.false_eq_true, if_false]
    by_cases same : e.shown = some e.machine.screen.pixels
    · simp only [same, if_true, true_and]
      exact ⟨own, journal, rfl⟩
    · simp only [same, if_false, true_and]
      exact ⟨own, journal, rfl⟩

theorem idle (twin : Twin d d' e other) : Twin d d' e.idle other.idle := by
  obtain ⟨own, journal, rfl⟩ := twin
  by_cases early : e.machine.clock.read.now <
      Time.earlier (e.lastCycle + e.interval) (e.lastRefresh + Time.sixtieth)
  · simp only [Emulator.idle, Emulator.readClock, Machine.inDialect, early, if_true]
    exact ⟨own, journal, rfl⟩
  · simp only [Emulator.idle, Emulator.readClock, Machine.inDialect, early, if_false]
    exact ⟨own, journal, rfl⟩

/-! ### Passes -/

theorem paced (twin : Twin d d' e other) : Twin d d' { e with lastCycle := e.lastCycle + e.interval }
    { other with lastCycle := other.lastCycle + other.interval } := by
  obtain ⟨own, journal, rfl⟩ := twin
  exact ⟨own, journal, rfl⟩

theorem begunDue (twin : Twin d d' e other) (now : τ) (budget : Nat) :
    Abreast (Twin d d') (Shares d d') (Emulator.begunDue now budget e) (Emulator.begunDue now budget other) := by
  induction budget generalizing e other with
  | zero => exact .nil
  | succ budget ih =>
    unfold Emulator.begunDue
    by_cases due : e.due now
    · rw [if_pos due, if_pos ((twin.due_iff now).2 due)]
      refine .cons twin.paced ?_
      intro shared
      have ran := twin.paced.step shared
      rw [ran.result]
      split
      · exact ih ran.state
      · exact .nil
    · rw [if_neg due, if_neg (mt (twin.due_iff now).1 due)]
      exact .nil

theorem catchUp (twin : Twin d d' e other) (now : τ) (budget : Nat)
    (shared : ∀ c ∈ Emulator.begunDue now budget e, c.Shares d d') :
    Concur d d' (Emulator.catchUp now budget e) (Emulator.catchUp now budget other) := by
  induction budget generalizing e other with
  | zero => exact ⟨rfl, twin⟩
  | succ budget ih =>
    unfold Emulator.begunDue at shared
    unfold Emulator.catchUp
    by_cases due : e.due now
    · simp only [if_pos due, if_pos ((twin.due_iff now).2 due), List.forall_mem_cons] at shared ⊢
      obtain ⟨first, rest⟩ := shared
      have ran := twin.paced.step first
      rw [ran.result]
      split
      next ok =>
        rw [ok] at rest
        exact ih ran.state rest
      next =>
        obtain ⟨own, journal, after⟩ := ran.state
        rw [after]
        exact ⟨rfl, own, _, rfl⟩
      next => exact ⟨rfl, ran.state⟩
    · rw [if_neg due, if_neg (mt (twin.due_iff now).1 due)]
      exact ⟨rfl, twin⟩

theorem begunPass (twin : Twin d d' e other) : Abreast (Twin d d') (Shares d d') e.begunPass other.begunPass := by
  unfold Emulator.begunPass
  rw [twin.now_readClock]
  exact twin.readClock.begunDue _ _

theorem runOnce (twin : Twin d d' e other) (shared : ∀ c ∈ e.begunPass, c.Shares d d') :
    Concur d d' e.runOnce other.runOnce := by
  rw [runOnce_eq, runOnce_eq, cycled, cycled, twin.now_readClock]
  refine (twin.readClock.catchUp _ _ shared).andThen ?_
  intro after after' _ _ twin
  have followed := ((twin.dropBacklog e.readClock.machine.clock.now).syncTimers.syncDisplay
    e.readClock.machine.clock.now).2
  exact ⟨congrArg (fun finished => Except.ok (!finished)) followed.finished, followed⟩

/-! ### The loop -/

section
variable {look look' : Nat → Emulator τ → Emulator τ}
  (looks : ∀ n e other, Twin d d' e other → Twin d d' (look n e) (look' n other))
include looks

theorem passesWith (twin : Twin d d' e other) (first passes : Nat) :
    Abreast (Twin d d') (Shares d d') ((Emulator.passesWith look first passes e).flatMap Emulator.begunPass)
      ((Emulator.passesWith look' first passes other).flatMap Emulator.begunPass) := by
  induction passes generalizing first e other with
  | zero => exact .nil
  | succ passes ih =>
    have looked := looks first e other twin
    unfold Emulator.passesWith
    rw [twin.running]
    split
    · refine looked.begunPass.append ?_
      intro shared
      have passed := looked.runOnce shared
      rw [passed.result]
      split
      · exact ih passed.state.idle (first + 1)
      · exact .nil
    · exact .nil

theorem runWith (twin : Twin d d' e other) (first passes : Nat)
    (shared : ∀ c ∈ (Emulator.passesWith look first passes e).flatMap Emulator.begunPass, c.Shares d d') :
    Concur d d' (Emulator.runWith look first passes e) (Emulator.runWith look' first passes other) := by
  induction passes generalizing first e other with
  | zero =>
    unfold Emulator.runWith
    rw [twin.running]
    split
    · exact ⟨rfl, twin⟩
    · exact ⟨congrArg (fun finished => Except.ok (some finished)) twin.finished, twin.stop⟩
  | succ passes ih =>
    have looked := looks first e other twin
    unfold Emulator.passesWith at shared
    unfold Emulator.runWith
    rw [twin.running]
    by_cases running : e.running = true
    · simp only [if_pos running, List.flatMap_cons, List.forall_mem_append] at shared ⊢
      obtain ⟨first, rest⟩ := shared
      have passed := looked.runOnce first
      rw [passed.result]
      split
      next ok =>
        rw [ok] at rest
        exact ih passed.state.idle _ rest
      next => exact ⟨rfl, passed.state⟩
    · rw [if_neg running, if_neg running]
      exact ⟨congrArg (fun finished => Except.ok (some finished)) twin.finished, twin.stop⟩

end

/-! ### Acts -/

theorem begun_outcome (twin : Twin d d' e other) (hand hand' : Hand) (a : Act τ) :
    Abreast (Twin d d') (Shares d d') (e.outcome hand a).begun (other.outcome hand' a).begun := by
  have switched := twin.switch hand.before hand'.before
  cases a with
  | step => exact .cons switched fun _ => .nil
  | catchUp now budget => exact switched.begunDue now budget
  | runOnce => exact switched.begunPass.append fun _ => .nil
  | run polls first passes =>
    exact switched.passesWith (fun n _ _ twin => (twin.poll (polls n)).switch _ _) first passes
  | _ => exact .nil

/-- An act in which nothing divides the dialects is answered alike and leaves twins, whatever is done to the
    switches. -/
theorem outcome (twin : Twin d d' e other) (hand hand' : Hand) {a : Act τ}
    (shared : ∀ c ∈ (e.outcome hand a).begun, c.Shares d d') (outside : e.SharesOutside d d' a) :
    (other.outcome hand' a).answer = (e.outcome hand a).answer ∧
    Twin d d' (e.outcome hand a).state (other.outcome hand' a).state := by
  have switched := twin.switch hand.before hand'.before
  cases a with
  | step =>
    have ran := switched.step (shared _ List.mem_cons_self)
    exact ⟨congrArg (Except.map Answer.instruction) ran.result, ran.state⟩
  | runOnce =>
    have ran := switched.runOnce fun c begins => shared c (List.mem_append_left [] begins)
    exact ⟨congrArg (Except.map Answer.flag) ran.result, ran.state⟩
  | run polls first passes =>
    have ran := switched.runWith (fun n _ _ twin => (twin.poll (polls n)).switch _ (hand'.atLook n)) first passes shared
    exact ⟨congrArg (Except.map Answer.ended) ran.result, ran.state⟩
  | catchUp now budget =>
    have ran := switched.catchUp now budget shared
    exact ⟨congrArg (Except.map fun _ => Answer.nothing) ran.result, ran.state⟩
  | syncDisplay now =>
    obtain ⟨same, looked⟩ := switched.syncDisplay now
    exact ⟨congrArg (fun b => Except.ok (Answer.flag b)) same, looked⟩
  | exec i =>
    have ran := switched.exec (i := i) outside
    exact ⟨congrArg (Except.map fun _ => Answer.nothing) ran.result, ran.state⟩
  | paint x y rows =>
    obtain ⟨rfl, journal, same⟩ := switched
    have painted := Machine.paint_inDialect (m := (e.switch hand.before).machine) (d := d') outside
    simp only [Emulator.outcome, answer, act, Attempt.state_done, same, painted, true_and]
    exact ⟨rfl, journal, rfl⟩
  | syncTimers => exact ⟨rfl, switched.syncTimers⟩
  | idle => exact ⟨rfl, switched.idle⟩
  | readClock => exact ⟨rfl, switched.readClock⟩
  | dropBacklog now => exact ⟨rfl, switched.dropBacklog now⟩
  | clear | hold keyboard =>
    obtain ⟨own, journal, same⟩ := switched
    simp only [Emulator.outcome, answer, act, Attempt.state_done, same]
    exact ⟨rfl, own, journal, rfl⟩

end Twin

/-! ### Courses -/

variable [Time τ]

/-- Nothing that the act runs divides the dialects. -/
def Undivided (d d' : Dialect) (e : Emulator τ) (a : Act τ) : Prop :=
  (∀ c ∈ e.begun a, c.Shares d d') ∧ e.SharesOutside d d' a

/-- Where one setup starts, so does the same with another dialect and with the switch of its journal elsewhere. -/
theorem exists_twin {s : Setup τ} {start : Emulator τ} (starts : ofProgram s = .ok start) (d : Dialect)
    (verbose : Bool) :
    ∃ other, ofProgram { s with dialect := d, verbose } = .ok other ∧ Twin s.dialect d start other := by
  unfold ofProgram Machine.load Core.load Emulator.start Machine.initial at starts ⊢
  by_cases beyond : Core.room < s.program.size
  · simp only [if_pos beyond, reduceCtorEq] at starts
  · simp only [if_neg beyond] at starts ⊢
    cases paced : (Time.period s.rate : Except FrequencyError τ) with
    | ok interval =>
      simp only [paced] at starts ⊢
      rw [← Except.ok.inj starts]
      exact ⟨_, rfl, rfl, _, rfl⟩
    | error _ =>
      simp only [paced, reduceCtorEq] at starts

/-- As long as nothing divides the dialects, emulators that are started alike but for them remain twins and answer
    alike; and in the next act the cycles begin as twins up to the first that divides them. -/
theorem twin_of_course {s : Setup τ} {start : Emulator τ} (starts : ofProgram s = .ok start) (d : Dialect) :
    ∃ other, ofProgram { s with dialect := d } = .ok other ∧ ∀ acts : List (Act τ),
      (∀ p ∈ start.course acts, p.1.Undivided s.dialect d p.2) →
      Twin s.dialect d (start.actAll acts) (other.actAll acts) ∧
      ∀ a, Abreast (Twin s.dialect d) (Shares s.dialect d) ((start.actAll acts).begun a) ((other.actAll acts).begun a) ∧
        ((start.actAll acts).Undivided s.dialect d a → (other.actAll acts).answer a = (start.actAll acts).answer a) := by
  obtain ⟨other, begins, twin⟩ := exists_twin starts d s.verbose
  refine ⟨other, begins, ?_⟩
  intro acts undivided
  have twins : Twin s.dialect d (start.actAll acts) (other.actAll acts) := by
    refine course_induction (P := fun acts e => Twin s.dialect d e (other.actAll acts)) twin ?_ undivided
    intro acts a twin undivided
    have after := (twin.outcome .still .still (a := a) (by rw [outcome_still]; exact undivided.1) undivided.2).2
    rw [outcome_still, outcome_still] at after
    rw [actAll_concat]
    exact after
  refine ⟨twins, ?_⟩
  intro a
  constructor
  · have begun := twins.begun_outcome .still .still a
    rw [outcome_still, outcome_still] at begun
    exact begun
  · intro undivided
    have same := (twins.outcome .still .still (a := a) (by rw [outcome_still]; exact undivided.1) undivided.2).1
    rw [outcome_still, outcome_still] at same
    exact same

theorem twin_of_course_drawing : ∃ start other : Emulator Rat, ofProgram (.plain #[0xD0, 0x05]) = .ok start ∧
    ofProgram { Setup.plain #[0xD0, 0x05] with dialect := ⟨true, true, true, true, true⟩ } = .ok other ∧
    start.Undivided .plain ⟨true, true, true, true, true⟩ .step ∧
    Twin .plain ⟨true, true, true, true, true⟩ start.step.state other.step.state := by
  obtain ⟨start, starts, started⟩ := exists_plain #[0xD0, 0x05] (by decide)
  obtain ⟨other, begins, twins⟩ := twin_of_course starts ⟨true, true, true, true, true⟩
  have word : start.machine.nextWord = Instruction.encode (.draw 0 0 5) :=
    (started.nextWord (by decide)).trans (by decide)
  have registers : start.machine.registers = .zero := by rw [started.machine]; rfl
  -- the sprite is drawn in the upper left corner, five rows high
  have undivided : start.Undivided .plain ⟨true, true, true, true, true⟩ .step := by
    refine ⟨List.forall_mem_singleton.2 fun _ divided => ?_, trivial⟩
    rw [word, Instruction.decode_encode (by simp), registers] at divided
    exact absurd divided.2 (by simp [Screen.Crosses, Registers.get_zero])
  exact ⟨start, other, starts, begins, undivided, (twins [.step] (List.forall_mem_singleton.2 undivided)).1⟩

end Emulator

end Chip8
