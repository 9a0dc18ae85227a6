import Chip8.Proofs.Outcome

/-!
The journal of a run. It is told of every instruction that is executed and of the end of the program where a pass
meets it (`Event`), and holds what is said of these while its switch is on, and the warnings always
(`Emulator.Told`, `Emulator.told_perform`). Every instruction that runs through is remarked on unless it is silent
(`Machine.Silent`, `Event.remarked_executes`). A word that is no instruction is warned of when it is executed first and
never again (`Reporting`, `Reporting.warnsOnce`).
-/
namespace Chip8
open Text
variable {τ : Type}

namespace Machine

/-! ### Remarks -/

/-- The machine has nothing to remark on the instruction when it executes it: a word that is none, a skip whose
    condition is not met, or a wait for a key that has not come. -/
def Silent (m : Machine τ) : Instruction → Prop
  | .unknown _ => True
  | .skip c => ¬ c.Met m
  | .waitKey _ => m.look.awaited? = none
  | _ => False

variable {m after : Machine τ}

/-- A skip that ran through has moved the counter exactly if it was taken. -/
theorem pc_skip_eq_iff {c : Condition} (ran : m.skip c = .done after ()) :
    after.core.pc = m.core.pc ↔ ¬ c.Met m := by
  by_cases met : c.Met m
  · refine iff_of_false (fun same => ?_) (not_not.2 met)
    rcases Int.lt_or_le m.core.pc.limit (m.core.pc.addr + 2) with beyond | room
    · rw [skip_of_lt met beyond] at ran
      cases ran
    · rw [skip_of_le met room] at ran
      cases ran
      have moved := congrArg ProgramCounter.addr same
      rw [core_ahead, core_tested] at moved
      dsimp only at moved
      omega
  · rw [skip_of_not_met met] at ran
    cases ran
    exact iff_of_true (by rw [core_tested]) met

/-- A wait leaves its mark exactly if it goes on. -/
theorem waiting_waitKey_iff (x : Register) : (m.waitKey x).waiting = true ↔ m.look.awaited? = none := by
  cases found : m.look.awaited? with
  | none => simp only [waitKey_of_none x found]
  | some key => simp [waitKey_of_some x found]

theorem remark?_eq_none_iff_silent {i : Instruction} (ran : m.execute i = .done after ()) :
    m.remark? i after = none ↔ m.Silent i := by
  rw [remark?_eq_none_iff]
  cases i with
  | skip c => simpa [Silent] using pc_skip_eq_iff ran
  | waitKey x =>
    cases ran
    simpa [Silent] using waiting_waitKey_iff x
  | _ => simp [Silent]

end Machine

/-! ### Events -/

/-- What the journal is told of. -/
inductive Event (τ : Type) where
  | executes (m : Machine τ) (i : Instruction)
  | meetsEnd (pc : Int)

namespace Event

/-- All that is said of an event: of an instruction only if it ran through. -/
def entries : Event τ → List Journal.Entry
  | executes m i =>
    ((m.warning? i).map (Journal.Entry.mk .warning)).toList ++ match (m.execute i).result with
      | .ok _ => ((m.remark? i (m.execute i).state).map (Journal.Entry.mk .debug)).toList
      | .error _ => []
  | meetsEnd pc => [⟨.debug, (Fault.finished pc).message⟩]

theorem entries_of_done {m after : Machine τ} {i : Instruction} (ran : m.execute i = .done after ()) :
    (executes m i).entries = ((m.warning? i).map (Journal.Entry.mk .warning)).toList ++
      ((m.remark? i after).map (Journal.Entry.mk .debug)).toList := by
  simp only [entries, ran, Attempt.result_done, Attempt.state_done]

/-- Nothing is said of an instruction that is stopped. -/
theorem entries_of_stopped {m after : Machine τ} {i : Instruction} {f : Fault} (ran : m.execute i = .stopped after f) :
    (executes m i).entries = [] := by
  have known : ∀ w, i ≠ .unknown w := by
    rintro w rfl
    cases ran
  simp only [entries, ran, Attempt.result_stopped, Machine.warning?_of_known known]
  rfl

/-- An instruction that runs through is remarked on, in one entry, unless the machine has nothing to remark on it; then
    nothing is said but a warning. Of one that is stopped nothing is said at all. -/
structure Remarked (m : Machine τ) (i : Instruction) : Prop where
  told : (m.execute i).result = .ok () → ¬ m.Silent i → ∃ text, (executes m i).entries = [⟨.debug, text⟩]
  silent : m.Silent i → ∀ entry ∈ (executes m i).entries, entry.level = .warning
  stopped : ∀ f, (m.execute i).result = .error f → (executes m i).entries = []

theorem not_silent_of_stopped {m after : Machine τ} {i : Instruction} {f : Fault}
    (ran : m.execute i = .stopped after f) : ¬ m.Silent i := by
  cases i with
  | skip c =>
    intro unmet
    rw [Machine.execute, Machine.skip_of_not_met unmet] at ran
    cases ran
  | unknown w | waitKey x => cases ran
  | _ => exact id

theorem remarked_executes (m : Machine τ) (i : Instruction) : Remarked m i := by
  cases ran : m.execute i with | mk after result =>
    cases result with
    | error f =>
      have nothing : (executes m i).entries = [] := entries_of_stopped ran
      exact ⟨by rw [ran]; nofun, fun silent => absurd silent (not_silent_of_stopped ran), fun _ _ => nothing⟩
    | ok _ =>
      have said := entries_of_done ran
      have quiet := Machine.remark?_eq_none_iff_silent ran
      refine ⟨fun _ speaks => ?_, fun silent => ?_, by rw [ran]; nofun⟩
      · obtain ⟨text, remarks⟩ := Option.ne_none_iff_exists'.1 (mt quiet.1 speaks)
        have known : ∀ w, i ≠ .unknown w := by
          rintro w rfl
          exact speaks trivial
        exact ⟨text, by rw [said, Machine.warning?_of_known known, remarks]; rfl⟩
      · rw [said, quiet.2 silent]
        intro entry among
        rw [Option.map_none, Option.toList_none, List.append_nil] at among
        obtain ⟨text, _, rfl⟩ := Option.map_eq_some_iff.1 (Option.mem_toList.1 among)
        rfl

/-- Nothing is warned of but unknown words. -/
theorem exists_unknown_of_warning {event : Event τ} {entry : Journal.Entry} (said : entry ∈ event.entries)
    (warns : entry.level = .warning) : ∃ m w, event = .executes m (.unknown w) := by
  cases event with
  | meetsEnd pc =>
    rw [List.mem_singleton.1 said] at warns
    cases warns
  | executes m i =>
    by_cases unknown : ∃ w, i = .unknown w
    · obtain ⟨w, rfl⟩ := unknown
      exact ⟨m, w, rfl⟩
    · have silent : m.warning? i = none := Machine.warning?_of_known (not_exists.1 unknown)
      simp only [entries, silent, Option.map_none, Option.toList_none, List.nil_append] at said
      split at said
      · obtain ⟨text, _, rfl⟩ := Option.map_eq_some_iff.1 (Option.mem_toList.1 said)
        cases warns
      · cases said

end Event

namespace Journal

/-- Of what is said, the journal takes the warnings, and everything while its switch is on. -/
def heard (on : Bool) (said : List Entry) : List Entry := said.filter fun entry => on || entry.level = .warning

/-- The entries of a journal that are warnings. -/
def warnings (j : Journal) : List Entry := j.entries.toList.filter fun entry => entry.level = .warning

end Journal

/-- Whatever the position of the switch, the same warnings are taken. -/
theorem Journal.filter_heard (on : Bool) (said : List Entry) :
    (heard on said).filter (fun entry => entry.level = .warning) = said.filter fun entry => entry.level = .warning := by
  rw [heard, List.filter_filter]
  refine List.filter_congr fun entry _ => ?_
  cases decide (entry.level = .warning) <;> simp

theorem Journal.entries_remark (journal : Journal) (parts : List String) : (journal.remark parts).entries.toList =
    journal.entries.toList ++ heard journal.verbose [⟨.debug, " ".intercalate parts⟩] := by
  cases on : journal.verbose <;> simp [remark, heard, on]

theorem entries_note (journal : Journal) (m : Machine τ) (i : Instruction) (after : Machine τ) :
    (Emulator.note journal m i after).entries.toList = journal.entries.toList ++ Journal.heard journal.verbose
      (((m.warning? i).map (Journal.Entry.mk .warning)).toList ++
        ((m.remark? i after).map (Journal.Entry.mk .debug)).toList) := by
  obtain ⟨verbose, entries⟩ := journal
  cases warned : m.warning? i <;> cases remarked : m.remark? i after <;> cases verbose <;>
    simp [Emulator.note, Journal.heard, Journal.warn, Journal.remark, warned, remarked]

/-! ### Unknown words -/

namespace Machine

theorem isReported_iff (m : Machine τ) (w : Word) : m.isReported w = true ↔ w ∈ m.reported := by simp [isReported]

/-- Only a word that is no instruction is added to those reported. -/
theorem reported_execute {i : Instruction} (m : Machine τ) (known : ∀ w, i ≠ .unknown w) :
    (m.execute i).state.reported = m.reported := by
  cases i with
  | unknown w => exact absurd rfl (known w)
  | skip c =>
    rw [execute, skip_eq]
    split
    · exact m.reported_tested c
    · exact m.reported_tested c
  | waitKey x =>
    cases found : m.look.awaited? with
    | none => simp only [execute, waitKey_of_none x found, Attempt.state_done, reported_look]
    | some key => simp only [execute, waitKey_of_some x found, Attempt.state_done, reported_look]
  | _ => rfl

theorem mem_reported_execute_iff (m : Machine τ) (i : Instruction) (w : Word) :
    w ∈ (m.execute i).state.reported ↔ w ∈ m.reported ∨ i = .unknown w := by
  cases i with
  | unknown v =>
    simp only [execute, Attempt.state_done, isReported_iff, Instruction.unknown.injEq]
    by_cases old : v ∈ m.reported
    · rw [if_pos old]
      exact ⟨.inl, fun either => either.elim id fun same => same ▸ old⟩
    · rw [if_neg old, List.mem_cons, or_comm, eq_comm]
  | _ => simp [reported_execute]

end Machine

/-- The events follow on one another: each machine that executes has the unknown words reported that were executed
    before it. -/
inductive Reporting : List Word → List (Event τ) → List Word → Prop where
  | nil (words : List Word) : Reporting words [] words
  | executes {m : Machine τ} {i : Instruction} {events : List (Event τ)} {words : List Word}
      (rest : Reporting (m.execute i).state.reported events words) :
      Reporting m.reported (.executes m i :: events) words
  | meetsEnd {pc : Int} {events : List (Event τ)} {words words' : List Word} (rest : Reporting words events words') :
      Reporting words (.meetsEnd pc :: events) words'

namespace Reporting
variable {words words' words'' : List Word} {events events' : List (Event τ)}

theorem append (first : Reporting words events words') (second : Reporting words' events' words'') :
    Reporting words (events ++ events') words'' := by
  induction first with
  | nil => exact second
  | executes _ ih => exact .executes (ih second)
  | meetsEnd _ ih => exact .meetsEnd (ih second)

theorem mem_reported_iff {before rest : List (Event τ)} {m : Machine τ} {i : Instruction}
    (reporting : Reporting words (before ++ .executes m i :: rest) words') (w : Word) :
    w ∈ m.reported ↔ w ∈ words ∨ ∃ m', .executes m' (.unknown w) ∈ before := by
  induction before generalizing words with
  | nil =>
    cases reporting
    simp
  | cons event before ih =>
    cases reporting with
    | meetsEnd rest => simp [ih rest]
    | @executes m' j _ _ rest =>
      rw [ih rest, Machine.mem_reported_execute_iff]
      simp [or_assoc, exists_or, eq_comm]

end Reporting

/-- Each unknown word is warned of where it is executed first, and nothing else is. -/
structure WarnsOnce (events : List (Event τ)) : Prop where
  first : ∀ before m w rest, events = before ++ .executes m (.unknown w) :: rest →
    (∀ m', .executes m' (.unknown w) ∉ before) → (Event.executes m (.unknown w)).entries =
      [⟨.warning, "Unknown opcode: " ++ Hex.upper 4 w.toNat ++ " at " ++ Hex.upper 3 (m.core.pc.addr - 2)⟩]
  again : ∀ before m m' w rest, events = before ++ .executes m (.unknown w) :: rest →
    .executes m' (.unknown w) ∈ before → (Event.executes m (.unknown w)).entries = []
  only : ∀ event ∈ events, ∀ entry ∈ event.entries, entry.level = .warning → ∃ m w, event = .executes m (.unknown w)

theorem Reporting.warnsOnce {events : List (Event τ)} {words : List Word} (reporting : Reporting [] events words) :
    WarnsOnce events where
  first before m w rest split unmet := by
    subst split
    have new : ¬ m.isReported w = true := by
      rw [m.isReported_iff, reporting.mem_reported_iff w]
      rintro (⟨⟨⟩⟩ | ⟨m', met⟩)
      exact unmet m' met
    simp [Event.entries, Machine.warning?, Machine.remark?, Machine.execute, new]
  again before m m' w rest split met := by
    subst split
    have old : m.isReported w = true := (m.isReported_iff w).2 ((reporting.mem_reported_iff w).2 (.inr ⟨m', met⟩))
    simp [Event.entries, Machine.warning?, Machine.remark?, Machine.execute, old]
  only _ _ _ said warns := Event.exists_unknown_of_warning said warns

namespace Emulator

/-! ### The switch -/

theorem verbose_remark (journal : Journal) (parts : List String) :
    (journal.remark parts).verbose = journal.verbose := by
  unfold Journal.remark
  split <;> rfl

theorem verbose_note (journal : Journal) (m : Machine τ) (i : Instruction) (after : Machine τ) :
    (note journal m i after).verbose = journal.verbose := by
  have warned : ((m.warning? i).elim journal journal.warn).verbose = journal.verbose := by
    cases m.warning? i <;> rfl
  unfold note
  dsimp only
  split
  · cases m.remark? i after with
    | none => exact warned
    | some text => exact (verbose_remark _ _).trans warned
  · exact warned

theorem verbose_step (e : Emulator τ) : e.step.state.journal.verbose = e.journal.verbose := by
  rcases e.step_cases with ⟨after, _, _, stepped⟩ | ⟨f, after, _, stepped⟩
  · rw [stepped]
    exact verbose_note _ _ _ _
  · rw [stepped]
    rfl

/-! ### What the journal is told -/

/-- What the journal is told of a cycle. -/
def cycleEvents (e : Emulator τ) : List (Event τ) :=
  if e.machine.core.pc.addr + 2 ≤ e.machine.core.pc.limit then
    [.executes (e.machine.ahead 2) (.decode e.machine.nextWord)]
  else []

/-- What the journal is told of a cycle in a pass, which notes the end of the program as well. -/
def passEvents (e : Emulator τ) : List (Event τ) :=
  e.cycleEvents ++ match e.step.result with
    | .error (.finished pc) => [.meetsEnd pc]
    | _ => []

/-- The events, each with the position of the switch. -/
def marked (e : Emulator τ) (events : List (Event τ)) : List (Bool × Event τ) := events.map (e.journal.verbose, ·)

/-- On the way to the second state the journal was told of the events, and took of what is said about each what the
    position of its switch let through. -/
structure Told (e : Emulator τ) (events : List (Bool × Event τ)) (after : Emulator τ) : Prop where
  entries : after.journal.entries.toList =
    e.journal.entries.toList ++ events.flatMap fun told => Journal.heard told.1 told.2.entries
  reporting : Reporting e.machine.reported (events.map Prod.snd) after.machine.reported

namespace Told
variable {e mid after : Emulator τ} {events events' : List (Bool × Event τ)}

theorem trans (first : e.Told events mid) (second : mid.Told events' after) : e.Told (events ++ events') after where
  entries := by rw [second.entries, first.entries, List.flatMap_append, List.append_assoc]
  reporting := by
    rw [List.map_append]
    exact first.reporting.append second.reporting

theorem onward (quiet : e.Told [] mid) (told : mid.Told events after) : e.Told events after := quiet.trans told

theorem quietly (told : e.Told events mid) (quiet : mid.Told [] after) : e.Told events after := by
  have both := told.trans quiet
  rw [List.append_nil] at both
  exact both

theorem warnings (told : e.Told events after) : after.journal.warnings = e.journal.warnings ++
    (events.map Prod.snd).flatMap fun event => event.entries.filter fun entry => entry.level = .warning := by
  simp only [Journal.warnings, told.entries, List.filter_append, List.filter_flatMap, Journal.filter_heard,
    List.flatMap_map]

/-- Nothing is told where neither the entries of the journal nor the words reported change. -/
theorem nothing (entries : after.journal.entries = e.journal.entries)
    (reported : after.machine.reported = e.machine.reported) : e.Told [] after where
  entries := by rw [entries, List.flatMap_nil, List.append_nil]
  reporting := by
    rw [reported]
    exact .nil _

theorem exec (e : Emulator τ) (i : Instruction) :
    e.Told [(e.journal.verbose, .executes e.machine i)] (e.exec i).state where
  entries := by
    cases ran : e.machine.execute i with | mk after result =>
      cases result with
      | ok _ =>
        rw [exec_of_done ran, List.flatMap_singleton, Event.entries_of_done ran]
        exact entries_note e.journal e.machine i after
      | error f =>
        rw [exec_of_stopped ran, List.flatMap_singleton, Event.entries_of_stopped ran]
        exact (List.append_nil _).symm
  reporting := by
    rw [machine_exec]
    exact .executes (.nil _)

theorem cycle (e : Emulator τ) : e.Told (e.marked e.cycleEvents) e.step.state := by
  by_cases room : e.machine.core.pc.addr + 2 ≤ e.machine.core.pc.limit
  · have ran := Told.exec (e.withMachine (e.machine.ahead 2)) (.decode e.machine.nextWord)
    rw [cycleEvents, if_pos room, step_of_le room]
    unfold Attempt.andThen
    split
    · exact ⟨ran.entries, ran.reporting⟩
    · exact ⟨ran.entries, ran.reporting⟩
  · rw [cycleEvents, if_neg room, step_of_lt (Int.not_le.1 room)]
    exact .nothing rfl rfl

theorem meetsEnd (pc : Int) {on : Bool} (position : e.journal.verbose = on) : e.Told [(on, .meetsEnd pc)]
    { e with finished := true, journal := e.journal.remark [(Fault.finished pc).message] } where
  entries := by
    rw [Journal.entries_remark, position, List.flatMap_singleton]
    rfl
  reporting := .meetsEnd (.nil _)

variable [Time τ]

theorem catchUp (e : Emulator τ) (now : τ) (budget : Nat) :
    e.Told ((begunDue now budget e).flatMap fun c => c.marked c.passEvents) (Emulator.catchUp now budget e).state := by
  induction budget generalizing e with
  | zero => exact .nothing rfl rfl
  | succ budget ih =>
    unfold begunDue Emulator.catchUp
    by_cases due : e.due now
    · rw [if_pos due, if_pos due]
      have paced : e.Told [] { e with lastCycle := e.lastCycle + e.interval } := .nothing rfl rfl
      dsimp only
      generalize { e with lastCycle := e.lastCycle + e.interval } = c at paced ⊢
      refine paced.onward ?_
      rw [List.flatMap_cons]
      have ran := Told.cycle c
      have verbose := c.verbose_step
      cases stepped : c.step with | mk after result =>
        rw [stepped] at ran verbose
        cases result with
        | ok i =>
          have told : c.passEvents = c.cycleEvents := by simp only [passEvents, stepped, List.append_nil]
          rw [told]
          exact ran.trans (ih after)
        | error f =>
          rw [List.flatMap_nil, List.append_nil]
          cases f with
          | finished pc =>
            have told : c.passEvents = c.cycleEvents ++ [.meetsEnd pc] := by simp only [passEvents, stepped]
            rw [told, marked, List.map_append]
            exact ran.trans (.meetsEnd pc verbose)
          | stackUnderflow | stackOverflow addr =>
            have told : c.passEvents = c.cycleEvents := by simp only [passEvents, stepped, List.append_nil]
            rw [told]
            exact ran
    · rw [if_neg due, if_neg due]
      exact .nothing rfl rfl

theorem dropBacklog (e : Emulator τ) (now : τ) : e.Told [] (e.dropBacklog now) := by
  obtain ⟨lastCycle, dropped⟩ := e.dropBacklog_eq now
  rw [dropped]
  exact .nothing rfl rfl

theorem syncDisplay (e : Emulator τ) (now : τ) : e.Told [] (e.syncDisplay now).1 := by
  have looked := e.looked_syncDisplay now
  generalize e.syncDisplay now = after at looked ⊢
  cases looked <;> exact .nothing rfl rfl

theorem idle (e : Emulator τ) : e.Told [] e.idle := by
  obtain ⟨clock, idled⟩ := e.idle_eq
  rw [idled]
  exact .nothing rfl rfl

/-- The journal is told nothing of what a pass does once its cycles ran. -/
theorem follow (e : Emulator τ) (now : τ) : e.Told [] ((e.dropBacklog now).syncTimers.syncDisplay now).1 := by
  have ticked : (e.dropBacklog now).Told [] (e.dropBacklog now).syncTimers := .nothing rfl rfl
  exact (Told.dropBacklog e now).onward (ticked.onward (.syncDisplay _ now))

theorem runOnce (e : Emulator τ) : e.Told (e.begunPass.flatMap fun c => c.marked c.passEvents) e.runOnce.state := by
  have read : e.Told [] e.readClock := .nothing rfl rfl
  have ran := read.onward (.catchUp e.readClock e.readClock.machine.clock.now maxCatchUp)
  rw [runOnce_eq, cycled]
  unfold Attempt.andThen
  split
  · exact ran.quietly (.follow _ _)
  · exact ran

theorem runWith {look : Nat → Emulator τ → Emulator τ} (looks : ∀ n (e : Emulator τ), e.Told [] (look n e))
    (e : Emulator τ) (first passes : Nat) :
    e.Told (((passesWith look first passes e).flatMap begunPass).flatMap fun c => c.marked c.passEvents)
      (Emulator.runWith look first passes e).state := by
  induction passes generalizing first e with
  | zero =>
    by_cases running : e.running = true
    · rw [runWith_zero _ _ running]
      exact .nothing rfl rfl
    · rw [runWith_of_ended _ _ running]
      exact .nothing rfl rfl
  | succ passes ih =>
    by_cases running : e.running = true
    · have ran := (looks first e).onward (.runOnce _)
      cases passed : (look first e).runOnce with | mk after result =>
        rw [passed] at ran
        cases result with
        | ok goes =>
          rw [runWith_of_done _ _ running passed, passesWith_of_done _ _ running passed, List.flatMap_cons,
            List.flatMap_append]
          exact ran.trans ((Told.idle after).onward (ih after.idle (first + 1)))
        | error f =>
          rw [runWith_of_stopped _ _ running passed, passesWith_of_stopped _ _ running passed, List.flatMap_singleton]
          exact ran
    · rw [runWith_of_ended _ _ running, passesWith_of_ended _ _ running]
      exact .nothing rfl rfl

end Told

variable [Time τ]

/-! ### Scripts -/

/-- What the journal is told of during an act. -/
def events (e : Emulator τ) (hand : Hand) : Act τ → List (Bool × Event τ)
  | .step => (e.outcome hand .step).begun.flatMap fun c => c.marked c.cycleEvents
  | .exec i => [(hand.before e.journal.verbose, .executes e.machine i)]
  | a => (e.outcome hand a).begun.flatMap fun c => c.marked c.passEvents

/-- What it is told of during a script. -/
def chronicle (e : Emulator τ) : List (Act τ × Hand) → List (Bool × Event τ)
  | [] => []
  | (a, hand) :: script => e.events hand a ++ (e.outcome hand a).state.chronicle script

theorem told_outcome (e : Emulator τ) (hand : Hand) (a : Act τ) :
    e.Told (e.events hand a) (e.outcome hand a).state := by
  have switched : e.Told [] (e.switch hand.before) := .nothing rfl rfl
  cases a with
  | step =>
    have ran := switched.onward (.cycle _)
    rw [← List.append_nil (marked _ _)] at ran
    exact ran
  | exec i => exact switched.onward (.exec _ i)
  | catchUp now budget => exact switched.onward (.catchUp _ now budget)
  | runOnce =>
    have ran := switched.onward (.runOnce _)
    rw [← List.append_nil (begunPass _)] at ran
    exact ran
  | run polls first passes =>
    refine switched.onward (.runWith (fun n e => ?_) _ first passes)
    obtain ⟨held, closes⟩ := polls n
    cases held with
    | none => exact .nothing rfl rfl
    | some names => exact .nothing rfl rfl
  | syncDisplay now => exact switched.onward (.syncDisplay _ now)
  | idle => exact switched.onward (.idle _)
  | dropBacklog now => exact switched.onward (.dropBacklog _ now)
  | syncTimers | readClock | paint x y rows | clear | hold keyboard => exact .nothing rfl rfl

theorem told_perform (e : Emulator τ) (script : List (Act τ × Hand)) :
    e.Told (e.chronicle script) (e.perform script) := by
  induction script generalizing e with
  | nil => exact .nothing rfl rfl
  | cons p script ih => exact (e.told_outcome p.2 p.1).trans (ih _)

end Emulator

end Chip8
