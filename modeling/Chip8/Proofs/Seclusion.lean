import Chip8.Proofs.History
import Chip8.Proofs.KeyWait

/-!
The course of a program does not depend on when its cycles run. Few instructions look out of the interior, at the
delay timer or at the keys (`Instruction.looksOut`); any other does the same in two machines with the same interior
(`Machine.interior_execute`). So as long as none looks out, pace, clock, keys, timers and display have no part in
the interior that a number of cycles leads to, which is the one of so many plain cycles
(`Emulator.interior_of_history`).
-/
namespace Chip8
variable {τ σ : Type}

/-- The instruction reads the delay timer or the keys. -/
def Instruction.looksOut : Instruction → Bool
  | .skip c => c.readsKeys
  | .readDelay _ | .waitKey _ => true
  | _ => false

namespace Machine
variable {m : Machine τ} {n : Machine σ}

theorem core_eq_of_interior (same : m.interior = n.interior) : m.core = n.core := congrArg Interior.core same

theorem nextWord_eq_of_interior (same : m.interior = n.interior) : m.nextWord = n.nextWord := by
  rw [nextWord, nextWord, core_eq_of_interior same]

theorem interior_ahead (same : m.interior = n.interior) (k : Int) : (m.ahead k).interior = (n.ahead k).interior := by
  have core : (m.ahead k).core = (n.ahead k).core := by rw [core_ahead, core_ahead, core_eq_of_interior same]
  exact congrArg₂ (fun (inside : Interior) core => { inside with core }) same core

theorem tested_of_inward (m : Machine τ) {c : Condition} (inward : c.readsKeys = false) : m.tested c = m := by
  rw [tested, inward, if_neg Bool.false_ne_true]

/-- An instruction that does not look out does the same in machines with the same interior. -/
theorem interior_execute (same : m.interior = n.interior) {i : Instruction} (inward : i.looksOut = false) :
    (m.execute i).result = (n.execute i).result ∧ (m.execute i).state.interior = (n.execute i).state.interior := by
  -- The machines share every field that is left in `same`; of the screens only the marks differ.
  obtain ⟨core, registers, delay, sound, ⟨pixels, dirty⟩, keypad, waiting, reported, dialect, keyboard, random, clock⟩ := m
  obtain ⟨_, _, delay', sound', ⟨_, dirty'⟩, _, _, _, _, keyboard', _, clock'⟩ := n
  simp only [interior, Interior.mk.injEq] at same
  obtain ⟨rfl, rfl, rfl, rfl, rfl, rfl, rfl, rfl⟩ := same
  cases i with
  | clearScreen =>
    simp only [execute, interior, Screen.clear]
    split
    · exact ⟨rfl, rfl⟩
    · exact ⟨rfl, rfl⟩
  | skip c =>
    rw [execute, execute, skip_eq, skip_eq, tested_of_inward _ inward, tested_of_inward _ inward]
    by_cases met : c.holds registers keypad = true
    · rw [if_pos met, if_pos met]
      exact ⟨rfl, rfl⟩
    · rw [if_neg met, if_neg met]
      exact ⟨rfl, rfl⟩
  | readDelay | waitKey => cases inward
  | _ => exact ⟨rfl, rfl⟩

/-- Only a skip that looks at the keys can be stopped or not as the surroundings have it. -/
theorem result_execute_eq (same : m.interior = n.interior) {i : Instruction}
    (unlooked : ∀ c, i = .skip c → c.readsKeys = false) : (m.execute i).result = (n.execute i).result := by
  cases i with
  | readDelay x | waitKey x => rfl
  | skip c => exact (interior_execute same (i := .skip c) (unlooked c rfl)).1
  | _ => exact (interior_execute same rfl).1

end Machine

namespace Emulator

/-! ### Cycles in the same interior -/

theorem result_step_of_le {e : Emulator τ} (room : e.machine.core.pc.addr + 2 ≤ e.machine.core.pc.limit) :
    e.step.result = ((e.machine.ahead 2).execute (.decode e.machine.nextWord)).result.map
      fun _ => .decode e.machine.nextWord := by
  cases ran : (e.machine.ahead 2).execute (.decode e.machine.nextWord) with | mk after result =>
    cases result with
    | ok _ => rw [step_of_done room ran]; rfl
    | error f => rw [step_of_stopped room ran]; rfl

theorem result_step_eq {e : Emulator τ} {other : Emulator σ} (same : e.machine.interior = other.machine.interior)
    (unlooked : ∀ c, Instruction.decode e.machine.nextWord = .skip c → c.readsKeys = false) :
    e.step.result = other.step.result := by
  have core := Machine.core_eq_of_interior same
  rcases Int.lt_or_le e.machine.core.pc.limit (e.machine.core.pc.addr + 2) with beyond | room
  · rw [step_of_lt beyond, step_of_lt (by rw [← core]; exact beyond), core]
    rfl
  · have word := Machine.nextWord_eq_of_interior same
    rw [result_step_of_le room, result_step_of_le (by rw [← core]; exact room), ← word,
      Machine.result_execute_eq (Machine.interior_ahead same 2) unlooked]

theorem interior_step {e : Emulator τ} {other : Emulator σ} (same : e.machine.interior = other.machine.interior)
    (inward : (Instruction.decode e.machine.nextWord).looksOut = false) :
    e.step.state.machine.interior = other.step.state.machine.interior := by
  have core := Machine.core_eq_of_interior same
  rcases Int.lt_or_le e.machine.core.pc.limit (e.machine.core.pc.addr + 2) with beyond | room
  · rw [step_of_lt beyond, step_of_lt (by rw [← core]; exact beyond)]
    exact Machine.interior_ahead same 2
  · have word := Machine.nextWord_eq_of_interior same
    rw [machine_step_of_le room, machine_step_of_le (by rw [← core]; exact room), ← word]
    exact (Machine.interior_execute (Machine.interior_ahead same 2) inward).2

/-! ### Histories of the same program -/

/-- The cycle that begins here runs through without a look out of the interior. -/
def Secluded (e : Emulator τ) : Prop := ∃ i, e.step.result = .ok i ∧ i.looksOut = false

/-- Along such cycles the interior is the one that so many plain cycles lead to. -/
theorem interior_carried (plain : Emulator τ) :
    Carried Secluded fun e : Emulator σ => e.machine.interior = (plain.stepped e.cycles).machine.interior where
  around same around := by
    rw [around.interior, around.cycles]
    exact same
  cycle := by
    rintro e same ⟨i, ran, inward⟩
    obtain ⟨rfl, counted⟩ := counted_of_ok ran
    rw [counted]
    exact interior_step same inward

theorem secluded_of_setByte {e : Emulator τ} {x : Register} {kk : Byte}
    (word : e.machine.nextWord = Instruction.encode (.setByte x kk))
    (room : e.machine.core.pc.addr + 2 ≤ e.machine.core.pc.limit) :
    e.Secluded ∧ e.step.state.machine.core = (e.machine.ahead 2).core := by
  rw [Secluded, step_of_word (by simp) word room (by rw [Machine.execute])]
  exact ⟨⟨.setByte x kk, rfl, rfl⟩, rfl⟩

theorem Started.interior_eq {s : Setup τ} {t : Setup σ} {start : Emulator τ} {other : Emulator σ}
    (program : s.program = t.program) (dialect : s.dialect = t.dialect) (random : s.random = t.random)
    (started : Started s.loaded start) (begun : Started t.loaded other) :
    start.machine.interior = other.machine.interior := by
  rw [started.machine, begun.machine]
  simp only [Machine.interior, Setup.loaded, Machine.initial, program, dialect, random]

variable [Time σ]

theorem interior_eq_stepped {start : Emulator τ} {other e : Emulator σ} (count : other.cycles = 0)
    (same : other.machine.interior = start.machine.interior) (history : other.History (Each Secluded) e) :
    e.machine.interior = (start.stepped e.cycles).machine.interior := by
  refine (interior_carried start).of_history history ?_
  rw [count]
  exact same

variable [Time τ]

/-- Two emulators with the same program, dialect and random bytes, at any rates and on any clocks, and a history of
    each in which no cycle was stopped and none looked out of the interior. Once they count the same cycles, they
    have the same interior, which is the one that so many plain cycles lead to. Whatever surrounds them then, the
    next cycle comes to the same result in both, unless it is a skip that looks at the keys. -/
theorem interior_of_history {s : Setup τ} {t : Setup σ} {start e : Emulator τ} {other e' : Emulator σ}
    (started : ofProgram s = .ok start) (begun : ofProgram t = .ok other)
    (program : s.program = t.program) (dialect : s.dialect = t.dialect) (random : s.random = t.random)
    (history : start.History (Each Secluded) e) (history' : other.History (Each Secluded) e')
    (count : e.cycles = e'.cycles) :
    e.machine.interior = e'.machine.interior ∧ e.machine.interior = (start.stepped e.cycles).machine.interior ∧
    ∀ next next', e.Around next → e'.Around next' →
      (∀ c, Instruction.decode next.machine.nextWord = .skip c → c.readsKeys = false) →
      next.step.result = next'.step.result := by
  have same : other.machine.interior = start.machine.interior :=
    Started.interior_eq program.symm dialect.symm random.symm (started_of_ofProgram begun) (started_of_ofProgram started)
  have plain := interior_eq_stepped (pace_of_ofProgram started).2 rfl history
  have plain' := interior_eq_stepped (pace_of_ofProgram begun).2 same history'
  rw [← count] at plain'
  have meet : e.machine.interior = e'.machine.interior := plain.trans plain'.symm
  refine ⟨meet, plain, ?_⟩
  intro next next' around around' unlooked
  have still : next.machine.interior = next'.machine.interior := by
    rw [around.interior, around'.interior, meet]
  exact result_step_eq still unlooked

theorem interior_of_history_constants : ∃ start other : Emulator Rat,
    ofProgram (.plain #[0x60, 0x07, 0x61, 0x08]) = .ok start ∧
    ofProgram ⟨#[0x60, 0x07, 0x61, 0x08], 20, .plain, .seeded 0, .ticking (0 : Rat) 1, false, true⟩ = .ok other ∧
    start.step.state.machine.interior = other.syncTimers.step.state.machine.interior ∧
    start.step.state.step.result = other.syncTimers.step.state.step.result := by
  obtain ⟨start, starts, started⟩ := exists_plain #[0x60, 0x07, 0x61, 0x08] (by decide)
  let slow : Setup Rat := ⟨#[0x60, 0x07, 0x61, 0x08], 20, .plain, .seeded 0, .ticking 0 1, false, true⟩
  have paced : Time.period slow.rate = .ok (1 / 20 : Rat) := rfl
  obtain ⟨other, begins⟩ := exists_ofProgram (s := slow) (by decide) paced
  have begun := started_of_ofProgram begins
  have counter : start.machine.core.pc = ⟨0x200, 0x204⟩ := by rw [started.machine]; rfl
  have counter' : other.machine.core.pc = ⟨0x200, 0x204⟩ := by rw [begun.machine]; rfl
  have word : start.machine.nextWord = Instruction.encode (.setByte 0 7) :=
    (started.nextWord (by decide)).trans (by decide)
  have word' : other.machine.nextWord = Instruction.encode (.setByte 0 7) :=
    (begun.nextWord (by decide)).trans (by decide)
  have room' : other.machine.core.pc.addr + 2 ≤ other.machine.core.pc.limit := by rw [counter']; decide
  obtain ⟨secluded, core⟩ := secluded_of_setByte word (by rw [counter]; decide)
  obtain ⟨secluded', _⟩ := secluded_of_setByte (e := other.syncTimers) word' room'
  have history : start.History (Each Secluded) start.step.state := .snoc .nil (a := .step) (each_step secluded)
  have ticked : other.History (Each Secluded) other.syncTimers := .snoc .nil (a := .syncTimers) ⟨rfl, List.forall_mem_nil _⟩
  have history' : other.History (Each Secluded) other.syncTimers.step.state :=
    .snoc ticked (a := .step) (each_step secluded')
  obtain ⟨i, ran, _⟩ := secluded
  obtain ⟨j, ran', _⟩ := secluded'
  have count : start.step.state.cycles = other.syncTimers.step.state.cycles := by
    rw [(counted_of_ok ran).2, (counted_of_ok ran').2, (pace_of_ofProgram starts).2]
    exact congrArg (· + 1) (pace_of_ofProgram begins).2.symm
  obtain ⟨same, _, next⟩ := interior_of_history starts begins rfl rfl rfl history history' count
  refine ⟨start, other, starts, begins, same, next _ _ ⟨rfl, rfl⟩ ⟨rfl, rfl⟩ ?_⟩
  intro c skips
  have second : start.step.state.machine.nextWord = Instruction.encode (.setByte 1 8) := by
    rw [Machine.nextWord, core, Machine.core_ahead, counter]
    exact (started.word (i := 2) (by decide) (by decide)).trans (by decide)
  rw [second, Instruction.decode_encode (by simp)] at skips
  cases skips

end Emulator

end Chip8
