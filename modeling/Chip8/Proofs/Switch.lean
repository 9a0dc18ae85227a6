import Chip8.Proofs.Chronicle
import Chip8.Proofs.Twins

/-!
The switch of the journal. Nothing that is done to the emulator moves it (`Emulator.verbose_act`), and nothing but the
journal depends on it: two scripts of the same acts, whatever is done to the switches meanwhile, lead through the same
states but for the journals and to the same warnings (`Emulator.journal_of_scripts`).
-/
namespace Chip8
open Text
variable {τ : Type}

/-- What is said of the program when it is loaded. -/
def Setup.loadEntry (s : Setup τ) : Journal.Entry := ⟨.debug, " ".intercalate
  ["Loaded " ++ toString s.program.size ++ " bytes, program ends at", Hex.marked (0x200 + s.program.size)]⟩

namespace Emulator

/-- The emulator but for its journal. -/
def bare (e : Emulator τ) : Emulator τ := { e with journal := .empty false }

end Emulator

/-- What comes of an act, but for the journals. -/
def Outcome.bare (o : Outcome τ) : Outcome τ := ⟨o.begun.map Emulator.bare, o.answer, o.state.bare⟩

namespace Emulator

/-! ### Twins in one dialect -/

section
variable {d : Dialect} {e other : Emulator τ}

/-- Nothing divides a dialect from itself. -/
theorem shares_self (d : Dialect) (e : Emulator τ) : e.Shares d d := fun _ => Instruction.not_divides_self d _ _

theorem sharesOutside_self (d : Dialect) (e : Emulator τ) (a : Act τ) : e.SharesOutside d d a := by
  cases a with
  | exec i => exact i.not_divides_self d _
  | paint x y rows => exact fun other => absurd rfl other
  | _ => trivial

/-- In one dialect, twins differ in their journals only. -/
theorem Twin.bare_eq (twin : Twin d d e other) : other.bare = e.bare := by
  obtain ⟨own, journal, rfl⟩ := twin
  simp only [bare, Machine.inDialect_self own]

/-- The journals of twins in one dialect are told of the same. -/
theorem Twin.cycleEvents_eq (twin : Twin d d e other) : other.cycleEvents = e.cycleEvents := by
  obtain ⟨own, journal, rfl⟩ := twin
  simp only [cycleEvents, Machine.inDialect_self own]

theorem Twin.passEvents_eq (twin : Twin d d e other) : other.passEvents = e.passEvents := by
  unfold passEvents
  rw [twin.cycleEvents_eq, (twin.step (shares_self d e)).result]

theorem flatMap_eq_of_twins {β : Type} {f : Emulator τ → List β} {es others : List (Emulator τ)}
    (twins : List.Forall₂ (Twin d d) es others) (same : ∀ e other, Twin d d e other → f other = f e) :
    others.flatMap f = es.flatMap f := by
  induction twins with
  | nil => rfl
  | cons twin _ ih => rw [List.flatMap_cons, List.flatMap_cons, same _ _ twin, ih]

theorem map_snd_marked (es : List (Emulator τ)) (f : Emulator τ → List (Event τ)) :
    (es.flatMap fun c => c.marked (f c)).map Prod.snd = es.flatMap f := by
  rw [List.map_flatMap]
  refine congrArg (es.flatMap ·) (funext fun c => ?_)
  rw [marked, List.map_map]
  exact List.map_id _

variable [Time τ]

/-- Whatever is done to the switches, the same comes of an act for twins in one dialect. -/
theorem Twin.outcome_eq (twin : Twin d d e other) (hand hand' : Hand) (a : Act τ) :
    (other.outcome hand' a).bare = (e.outcome hand a).bare ∧
    Twin d d (e.outcome hand a).state (other.outcome hand' a).state ∧
    (other.events hand' a).map Prod.snd = (e.events hand a).map Prod.snd := by
  have begun := (twin.begun_outcome hand hand' a).forall₂ fun c _ => shares_self d c
  obtain ⟨answer, state⟩ := twin.outcome hand hand' (fun c _ => shares_self d c) (sharesOutside_self d e a)
  have bares : (other.outcome hand' a).begun.map bare = (e.outcome hand a).begun.map bare := by
    rw [List.map_eq_flatMap, List.map_eq_flatMap]
    exact flatMap_eq_of_twins begun fun _ _ twin => congrArg ([·]) twin.bare_eq
  refine ⟨?_, state, ?_⟩
  · rw [Outcome.bare, Outcome.bare, bares, answer, state.bare_eq]
  · cases a with
    | step =>
      unfold events
      rw [map_snd_marked, map_snd_marked]
      exact flatMap_eq_of_twins begun fun _ _ twin => twin.cycleEvents_eq
    | exec i =>
      obtain ⟨own, journal, rfl⟩ := twin
      simp only [events, List.map_cons, List.map_nil, Machine.inDialect_self own]
    | _ =>
      unfold events
      rw [map_snd_marked, map_snd_marked]
      exact flatMap_eq_of_twins begun fun _ _ twin => twin.passEvents_eq

/-- So for scripts of the same acts. -/
theorem Twin.outcomes_eq {script script' : List (Act τ × Hand)} (twin : Twin d d e other)
    (same : script.map Prod.fst = script'.map Prod.fst) :
    (other.outcomes script').map Outcome.bare = (e.outcomes script).map Outcome.bare ∧
    Twin d d (e.perform script) (other.perform script') ∧
    (other.chronicle script').map Prod.snd = (e.chronicle script).map Prod.snd := by
  induction script generalizing script' e other with
  | nil =>
    obtain rfl := List.map_eq_nil_iff.1 same.symm
    exact ⟨rfl, twin, rfl⟩
  | cons p script ih =>
    obtain ⟨q, rest, rfl, first, later⟩ := List.map_eq_cons_iff.1 same.symm
    obtain ⟨a, hand⟩ := p
    obtain ⟨b, hand'⟩ := q
    obtain rfl : b = a := first
    obtain ⟨outcome, state, events⟩ := twin.outcome_eq hand hand' b
    obtain ⟨outcomes, performed, chronicle⟩ := ih state later.symm
    refine ⟨?_, performed, ?_⟩
    · simp only [Emulator.outcomes, List.map_cons, outcome, outcomes]
    · simp only [Emulator.chronicle, List.map_append, events, chronicle]

end

variable [Time τ]

/-! ### What moves the switch -/

theorem verbose_catchUp (now : τ) (budget : Nat) (e : Emulator τ) :
    (catchUp now budget e).state.journal.verbose = e.journal.verbose := by
  induction budget generalizing e with
  | zero => rfl
  | succ budget ih =>
    unfold catchUp
    split
    · have ran := verbose_step { e with lastCycle := e.lastCycle + e.interval }
      dsimp only
      split
      · exact (ih _).trans ran
      · exact (verbose_remark _ _).trans ran
      · exact ran
    · rfl

theorem verbose_syncDisplay (e : Emulator τ) (now : τ) : (e.syncDisplay now).1.journal.verbose = e.journal.verbose := by
  have looked := e.looked_syncDisplay now
  generalize e.syncDisplay now = after at looked ⊢
  cases looked <;> rfl

theorem verbose_dropBacklog (e : Emulator τ) (now : τ) : (e.dropBacklog now).journal.verbose = e.journal.verbose := by
  obtain ⟨lastCycle, dropped⟩ := e.dropBacklog_eq now
  rw [dropped]

theorem verbose_idle (e : Emulator τ) : e.idle.journal.verbose = e.journal.verbose := by
  obtain ⟨clock, idled⟩ := e.idle_eq
  rw [idled]

theorem verbose_runOnce (e : Emulator τ) : e.runOnce.state.journal.verbose = e.journal.verbose := by
  have ran : e.cycled.state.journal.verbose = e.journal.verbose := verbose_catchUp _ _ e.readClock
  rw [runOnce_eq]
  unfold Attempt.andThen
  split
  · exact (verbose_syncDisplay _ _).trans ((verbose_dropBacklog _ _).trans ran)
  · exact ran

theorem verbose_run (e : Emulator τ) (polls : Nat → Poll) (first passes : Nat) :
    (e.run polls first passes).1.state.journal.verbose = e.journal.verbose := by
  refine run_induction (P := fun after => after.journal.verbose = e.journal.verbose) (Q := fun _ => True)
    ?_ ?_ ?_ ?_ polls first passes (fun _ _ => trivial) rfl
  · intro e p kept
    obtain ⟨held, closes⟩ := p
    cases held <;> exact kept
  · exact fun e _ kept => e.verbose_runOnce.trans kept
  · exact fun e kept => e.verbose_idle.trans kept
  · exact fun e kept => kept

/-- Nothing that is done moves the switch. -/
theorem verbose_act (e : Emulator τ) (a : Act τ) : (e.act a).state.journal.verbose = e.journal.verbose := by
  cases a with
  | step => exact e.verbose_step
  | runOnce => exact e.verbose_runOnce
  | run polls first passes => exact e.verbose_run polls first passes
  | catchUp now budget => exact verbose_catchUp now budget e
  | syncDisplay now => exact e.verbose_syncDisplay now
  | idle => exact e.verbose_idle
  | dropBacklog now => exact e.verbose_dropBacklog now
  | exec i =>
    simp only [act, exec]
    split
    · exact verbose_note _ _ _ _
    · rfl
  | syncTimers | readClock | paint x y rows | clear | hold keyboard => rfl

/-- An emulator that has just been started has at most one entry in its journal, the note of the program. -/
theorem journal_of_ofProgram {s : Setup τ} {start : Emulator τ} (starts : ofProgram s = .ok start) :
    start.journal.verbose = s.verbose ∧ start.journal.entries.toList = Journal.heard s.verbose [s.loadEntry] := by
  unfold ofProgram Machine.load Core.load Emulator.start at starts
  by_cases beyond : Core.room < s.program.size
  · simp only [if_pos beyond, reduceCtorEq] at starts
  · simp only [if_neg beyond] at starts
    cases paced : (Time.period s.rate : Except FrequencyError τ) with
    | ok interval =>
      simp only [paced] at starts
      rw [← Except.ok.inj starts]
      exact ⟨verbose_remark _ _, Journal.entries_remark _ _⟩
    | error _ =>
      simp only [paced, reduceCtorEq] at starts

theorem warnings_of_ofProgram {s : Setup τ} {start : Emulator τ} (starts : ofProgram s = .ok start) :
    start.journal.warnings = [] := by
  rw [Journal.warnings, (journal_of_ofProgram starts).2, Journal.filter_heard]
  rfl

/-- Two emulators that are started alike but for the switches of their journals, and to which the same is done, go
    through the same states, answer the same and write the same warnings, however the switches are moved meanwhile. The
    journal takes exactly what is said while its switch is on, and every warning; each unknown word is warned of once;
    only a hand moves the switch; and every instruction that runs through is remarked on but an unknown word, a skip not
    taken and a wait that goes on. -/
theorem journal_of_scripts {s : Setup τ} {start : Emulator τ} (starts : ofProgram s = .ok start) :
    (∀ verbose, ∃ other, ofProgram { s with verbose } = .ok other ∧ ∀ script script' : List (Act τ × Hand),
      script.map Prod.fst = script'.map Prod.fst →
      (other.outcomes script').map Outcome.bare = (start.outcomes script).map Outcome.bare ∧
      (other.perform script').bare = (start.perform script).bare ∧
      (other.perform script').journal.warnings = (start.perform script).journal.warnings) ∧
    (∀ script : List (Act τ × Hand),
      (start.perform script).journal.entries.toList = Journal.heard s.verbose [s.loadEntry] ++
        (start.chronicle script).flatMap (fun told => Journal.heard told.1 told.2.entries) ∧
      WarnsOnce ((start.chronicle script).map Prod.snd)) ∧
    (∀ acts, (start.actAll acts).journal.verbose = s.verbose) ∧
    ∀ (m : Machine τ) (i : Instruction), Event.Remarked m i := by
  obtain ⟨verbose, loaded⟩ := journal_of_ofProgram starts
  refine ⟨?_, ?_, ?_, Event.remarked_executes⟩
  · intro verbose'
    obtain ⟨other, begins, twin⟩ := exists_twin starts s.dialect verbose'
    refine ⟨other, begins, ?_⟩
    intro script script' same
    obtain ⟨outcomes, performed, chronicle⟩ := twin.outcomes_eq same
    refine ⟨outcomes, performed.bare_eq, ?_⟩
    rw [(other.told_perform script').warnings, (start.told_perform script).warnings, chronicle,
      warnings_of_ofProgram begins, warnings_of_ofProgram starts]
  · intro script
    have told := start.told_perform script
    constructor
    · rw [told.entries, loaded]
    · have reporting := told.reporting
      have unreported : start.machine.reported = [] := by rw [(started_of_ofProgram starts).machine]; rfl
      rw [unreported] at reporting
      exact reporting.warnsOnce
  · intro acts
    induction acts using List.reverseRecOn with
    | nil => exact verbose
    | append_singleton acts a ih => rw [actAll_concat, verbose_act, ih]

theorem journal_of_scripts_unknown : ∃ start other : Emulator Rat, ofProgram (.plain #[0x01, 0x23]) = .ok start ∧
    ofProgram { Setup.plain #[0x01, 0x23] with verbose := true } = .ok other ∧
    (other.perform [(.step, ⟨not, fun _ => id⟩)]).journal.warnings =
      (start.perform [(.step, .still)]).journal.warnings ∧
    (start.perform [(.step, .still)]).journal.entries.toList = [⟨.warning, "Unknown opcode: 0123 at 200"⟩] := by
  obtain ⟨start, starts, started⟩ := exists_plain #[0x01, 0x23] (by decide)
  obtain ⟨switched, told, still, _⟩ := journal_of_scripts starts
  obtain ⟨other, begins, same⟩ := switched true
  obtain ⟨entries, once⟩ := told [(.step, .still)]
  refine ⟨start, other, starts, begins, (same [(.step, .still)] [(.step, ⟨not, fun _ => id⟩)] rfl).2.2, ?_⟩
  have counter : start.machine.core.pc = ⟨0x200, 0x202⟩ := by rw [started.machine]; rfl
  have word : Instruction.decode start.machine.nextWord = .unknown 0x0123 := by
    rw [started.nextWord (by decide)]
    decide
  have room : start.machine.core.pc.addr + 2 ≤ start.machine.core.pc.limit := by rw [counter]; decide
  have cycle : start.cycleEvents = [.executes (start.machine.ahead 2) (.unknown 0x0123)] := by
    rw [cycleEvents, if_pos room, word]
  have chronicle : start.chronicle [(.step, .still)] = start.marked start.cycleEvents :=
    (List.append_nil _).trans (List.append_nil _)
  rw [cycle] at chronicle
  have warned := once.first [] (start.machine.ahead 2) 0x0123 [] (by rw [chronicle]; rfl) (fun _ => List.not_mem_nil)
  have off : start.journal.verbose = false := still []
  rw [entries, chronicle, marked, List.map_singleton, List.flatMap_singleton, warned, Machine.core_ahead, counter, off]
  have text : "Unknown opcode: " ++ Hex.upper 4 (0x0123 : Word).toNat ++ " at " ++ Hex.upper 3 (0x200 + 2 - 2) =
      "Unknown opcode: 0123 at 200" := by decide
  exact congrArg (fun text => [Journal.Entry.mk .warning text]) text

end Emulator

end Chip8
