import Chip8.Emulator
import Chip8.Proofs.RoundTrip

/-!
One cycle, case by case. A cycle that does not fit before the end of the program only moves the counter
(`Emulator.step_of_lt`); else the word at the counter is executed on the machine behind it
(`Emulator.step_of_le`). An instruction runs through, or it is a taken skip at the end of the program, a return
without a call or a call too deep (`Machine.execute_cases`).
-/
namespace Chip8
variable {τ : Type}

/-- What a skip asks for, as the registers and the keys held now have it. -/
def Condition.Met (m : Machine τ) : Condition → Prop
  | equalsByte x kk => m.registers.get x = kk
  | differsFromByte x kk => m.registers.get x ≠ kk
  | equal x y => m.registers.get x = m.registers.get y
  | different x y => m.registers.get x ≠ m.registers.get y
  | pressed x => m.registers.key x ∈ Layout.keys m.keyboard.held
  | notPressed x => m.registers.key x ∉ Layout.keys m.keyboard.held

namespace Machine

/-- The word at the counter. -/
def nextWord (m : Machine τ) : Word := m.core.memory.word m.core.pc.addr
/-- The machine with its counter so many bytes further on. -/
def ahead (m : Machine τ) (n : Int) : Machine τ :=
  { m with core := { m.core with pc := { m.core.pc with addr := m.core.pc.addr + n } } }
/-- The machine as a skip leaves it that is not taken: a test of a key has looked at the keypad. -/
def tested (m : Machine τ) (c : Condition) : Machine τ := if c.readsKeys then m.look else m

@[simp] theorem core_ahead (m : Machine τ) (n : Int) :
    (m.ahead n).core = { m.core with pc := { m.core.pc with addr := m.core.pc.addr + n } } := rfl
@[simp] theorem core_look (m : Machine τ) : m.look.core = m.core := by simp only [look]
@[simp] theorem registers_look (m : Machine τ) : m.look.registers = m.registers := by simp only [look]
@[simp] theorem screen_look (m : Machine τ) : m.look.screen = m.screen := by simp only [look]
@[simp] theorem waiting_look (m : Machine τ) : m.look.waiting = m.waiting := by simp only [look]
@[simp] theorem dialect_look (m : Machine τ) : m.look.dialect = m.dialect := by simp only [look]
@[simp] theorem reported_look (m : Machine τ) : m.look.reported = m.reported := by simp only [look]
@[simp] theorem core_tested (m : Machine τ) (c : Condition) : (m.tested c).core = m.core := by
  cases c <;> simp [tested, Condition.readsKeys]
@[simp] theorem screen_tested (m : Machine τ) (c : Condition) : (m.tested c).screen = m.screen := by
  cases c <;> simp [tested, Condition.readsKeys]
@[simp] theorem waiting_tested (m : Machine τ) (c : Condition) : (m.tested c).waiting = m.waiting := by
  cases c <;> simp [tested, Condition.readsKeys]
@[simp] theorem dialect_tested (m : Machine τ) (c : Condition) : (m.tested c).dialect = m.dialect := by
  cases c <;> simp [tested, Condition.readsKeys]
@[simp] theorem reported_tested (m : Machine τ) (c : Condition) : (m.tested c).reported = m.reported := by
  cases c <;> simp [tested, Condition.readsKeys]
theorem ahead_tested_ahead (m : Machine τ) (c : Condition) (a b : Int) :
    ((m.ahead a).tested c).ahead b = (m.tested c).ahead (a + b) := by
  cases c <;> simp [tested, ahead, look, Condition.readsKeys, Int.add_assoc]

theorem met_ahead_iff (m : Machine τ) (n : Int) (c : Condition) : c.Met (m.ahead n) ↔ c.Met m := by
  cases c <;> rfl

theorem holds_tested_iff (m : Machine τ) (c : Condition) :
    c.holds (m.tested c).registers (m.tested c).keypad = true ↔ c.Met m := by
  cases c with
  | equalsByte x kk => simp [Condition.holds, Condition.Met, tested, Condition.readsKeys]
  | differsFromByte x kk => simp [Condition.holds, Condition.Met, tested, Condition.readsKeys]
  | equal x y => simp [Condition.holds, Condition.Met, tested, Condition.readsKeys]
  | different x y => simp [Condition.holds, Condition.Met, tested, Condition.readsKeys]
  | pressed x | notPressed x =>
    have seen := Keypad.isPressed_poll m.keypad (Layout.keys m.keyboard.held) (m.registers.key x)
    simp [Condition.holds, Condition.Met, tested, Condition.readsKeys, look, ← seen]

/-! ### Skips -/

theorem skip_eq (m : Machine τ) (c : Condition) :
    m.skip c = if c.holds (m.tested c).registers (m.tested c).keypad then
        (m.tested c).core.advance.within fun core => { m.tested c with core }
      else .done (m.tested c) () := rfl

theorem skip_of_not_met {m : Machine τ} {c : Condition} (unmet : ¬ c.Met m) : m.skip c = .done (m.tested c) () := by
  rw [skip_eq, if_neg (mt (m.holds_tested_iff c).1 unmet)]

theorem skip_of_le {m : Machine τ} {c : Condition} (met : c.Met m) (room : m.core.pc.addr + 2 ≤ m.core.pc.limit) :
    m.skip c = .done ((m.tested c).ahead 2) () := by
  have advanced := Core.advance_of_le (c := (m.tested c).core) (by rw [core_tested]; exact room)
  rw [skip_eq, if_pos ((m.holds_tested_iff c).2 met), advanced]
  rfl

theorem skip_of_lt {m : Machine τ} {c : Condition} (met : c.Met m) (beyond : m.core.pc.limit < m.core.pc.addr + 2) :
    m.skip c = .stopped ((m.tested c).ahead 2) (.finished (m.core.pc.addr + 2)) := by
  have advanced := Core.advance_of_lt (c := (m.tested c).core) (by rw [core_tested]; exact beyond)
  rw [skip_eq, if_pos ((m.holds_tested_iff c).2 met), advanced, Attempt.within_stopped, ahead, core_tested]
  rfl

/-! ### Instructions -/

theorem execute_ret_of_nil {m : Machine τ} (empty : m.core.stack.addresses = []) :
    m.execute .ret = .stopped m .stackUnderflow := by
  simp only [execute, Core.ret_of_nil empty, Attempt.within_stopped]

theorem execute_ret_of_cons {m : Machine τ} {addr : Int} {rest : List Int}
    (calls : m.core.stack.addresses = addr :: rest) :
    m.execute .ret = .done { m with core := { m.core with stack := ⟨rest⟩, pc := m.core.pc.jump addr } } () := by
  simp only [execute, Core.ret_of_cons calls, Attempt.within_done]

theorem execute_call_of_lt {m : Machine τ} (free : m.core.stack.addresses.length < 16) (addr : Address) :
    m.execute (.call addr) = .done { m with core := { m.core with
      stack := ⟨m.core.pc.addr :: m.core.stack.addresses⟩, pc := m.core.pc.jump addr.toNat } } () := by
  simp only [execute, Core.call_of_lt free, Attempt.within_done]

theorem execute_call_of_le {m : Machine τ} (full : 16 ≤ m.core.stack.addresses.length) (addr : Address) :
    m.execute (.call addr) = .stopped m (.stackOverflow m.core.pc.addr) := by
  simp only [execute, Core.call_of_le full, Attempt.within_stopped]

/-- An instruction runs through, or it is one of three that cannot. -/
theorem execute_cases (m : Machine τ) (i : Instruction) :
    (∃ after, m.execute i = .done after ()) ∨
    (∃ c, i = .skip c ∧ c.Met m ∧ m.core.pc.limit < m.core.pc.addr + 2 ∧
      m.execute i = .stopped ((m.tested c).ahead 2) (.finished (m.core.pc.addr + 2))) ∨
    (i = .ret ∧ m.core.stack.addresses = [] ∧ m.execute i = .stopped m .stackUnderflow) ∨
    (∃ addr, i = .call addr ∧ 16 ≤ m.core.stack.addresses.length ∧
      m.execute i = .stopped m (.stackOverflow m.core.pc.addr)) := by
  cases i with
  | skip c =>
    by_cases met : c.Met m
    · by_cases room : m.core.pc.addr + 2 ≤ m.core.pc.limit
      · exact .inl ⟨_, skip_of_le met room⟩
      · have beyond := Int.not_le.1 room
        exact .inr (.inl ⟨c, rfl, met, beyond, skip_of_lt met beyond⟩)
    · exact .inl ⟨_, skip_of_not_met met⟩
  | ret =>
    cases calls : m.core.stack.addresses with
    | nil => exact .inr (.inr (.inl ⟨rfl, rfl, execute_ret_of_nil calls⟩))
    | cons addr rest => exact .inl ⟨_, execute_ret_of_cons calls⟩
  | call addr =>
    rcases Nat.lt_or_ge m.core.stack.addresses.length 16 with free | full
    · exact .inl ⟨_, execute_call_of_lt free addr⟩
    · exact .inr (.inr (.inr ⟨addr, rfl, full, execute_call_of_le full addr⟩))
  | _ => exact .inl ⟨_, rfl⟩

end Machine

namespace Emulator

/-- The emulator with another machine in it. -/
def withMachine (e : Emulator τ) (m : Machine τ) : Emulator τ := { e with machine := m }

/-! ### Cycles -/

theorem exec_of_done {e : Emulator τ} {i : Instruction} {after : Machine τ}
    (ran : e.machine.execute i = .done after ()) :
    e.exec i = .done { e with machine := after, journal := note e.journal e.machine i after } () := by
  simp only [exec, ran, Attempt.result_done, Attempt.state_done]

theorem exec_of_stopped {e : Emulator τ} {i : Instruction} {after : Machine τ} {f : Fault}
    (ran : e.machine.execute i = .stopped after f) : e.exec i = .stopped (e.withMachine after) f := by
  simp only [exec, ran, Attempt.result_stopped, Attempt.state_stopped, withMachine]

theorem step_of_lt {e : Emulator τ} (beyond : e.machine.core.pc.limit < e.machine.core.pc.addr + 2) :
    e.step = .stopped (e.withMachine (e.machine.ahead 2)) (.finished (e.machine.core.pc.addr + 2)) := by
  simp only [step, fetch, Core.fetch_of_lt beyond, Attempt.within_stopped, Attempt.andThen_stopped]
  rfl

/-- A cycle with room before the end of the program executes the word at the counter. -/
theorem step_of_le {e : Emulator τ} (room : e.machine.core.pc.addr + 2 ≤ e.machine.core.pc.limit) :
    e.step = ((e.withMachine (e.machine.ahead 2)).exec (.decode e.machine.nextWord)).andThen
      fun e' () => .done { e' with cycles := e'.cycles + 1 } (.decode e.machine.nextWord) := by
  simp only [step, fetch, Core.fetch_of_le room, Attempt.within_done, Attempt.andThen_done]
  rfl

theorem step_of_done {e : Emulator τ} {after : Machine τ} (room : e.machine.core.pc.addr + 2 ≤ e.machine.core.pc.limit)
    (ran : (e.machine.ahead 2).execute (.decode e.machine.nextWord) = .done after ()) :
    e.step = .done { e with
      machine := after
      journal := note e.journal (e.machine.ahead 2) (.decode e.machine.nextWord) after
      cycles := e.cycles + 1 } (.decode e.machine.nextWord) := by
  rw [step_of_le room, exec_of_done (e := e.withMachine (e.machine.ahead 2)) ran, Attempt.andThen_done]
  rfl

/-- A cycle that finds the word of an instruction executes the instruction. -/
theorem step_of_word {e : Emulator τ} {i : Instruction} {after : Machine τ} (known : ∀ w, i ≠ .unknown w)
    (word : e.machine.nextWord = Instruction.encode i) (room : e.machine.core.pc.addr + 2 ≤ e.machine.core.pc.limit)
    (ran : (e.machine.ahead 2).execute i = .done after ()) :
    e.step = .done { e with
      machine := after
      journal := note e.journal (e.machine.ahead 2) i after
      cycles := e.cycles + 1 } i := by
  obtain rfl := (Instruction.decode_eq_iff known _).2 word
  exact step_of_done room ran

theorem step_of_stopped {e : Emulator τ} {after : Machine τ} {f : Fault}
    (room : e.machine.core.pc.addr + 2 ≤ e.machine.core.pc.limit)
    (ran : (e.machine.ahead 2).execute (.decode e.machine.nextWord) = .stopped after f) :
    e.step = .stopped (e.withMachine after) f := by
  rw [step_of_le room, exec_of_stopped (e := e.withMachine (e.machine.ahead 2)) ran, Attempt.andThen_stopped]
  rfl

/-- The machine a cycle leaves, if there is room for the instruction. -/
theorem machine_step_of_le {e : Emulator τ} (room : e.machine.core.pc.addr + 2 ≤ e.machine.core.pc.limit) :
    e.step.state.machine = ((e.machine.ahead 2).execute (.decode e.machine.nextWord)).state := by
  cases ran : (e.machine.ahead 2).execute (.decode e.machine.nextWord) with | mk after result =>
    cases result with
    | ok _ => rw [step_of_done room ran]; rfl
    | error f => rw [step_of_stopped room ran]; rfl

/-- There is no room for another instruction before the end of the program. -/
def PastEnd (e : Emulator τ) : Prop := e.machine.core.pc.limit < e.machine.core.pc.addr + 2

/-- The next instruction is a skip that is taken, without room for what it skips. -/
def SkipsPastEnd (e : Emulator τ) : Prop :=
  ∃ c, e.machine.nextWord = Instruction.encode (.skip c) ∧ c.Met e.machine ∧
    e.machine.core.pc.limit < e.machine.core.pc.addr + 4

/-- The four ways a cycle fails: each with its fault and the machine that it leaves. -/
inductive Fails (e : Emulator τ) : Fault → Machine τ → Prop where
  | pastEnd (beyond : e.PastEnd) : Fails e (.finished (e.machine.core.pc.addr + 2)) (e.machine.ahead 2)
  | skipped {c : Condition} (room : ¬ e.PastEnd) (word : e.machine.nextWord = Instruction.encode (.skip c))
      (met : c.Met e.machine) (beyond : e.machine.core.pc.limit < e.machine.core.pc.addr + 4) :
      Fails e (.finished (e.machine.core.pc.addr + 4)) ((e.machine.tested c).ahead 4)
  | returned (room : ¬ e.PastEnd) (word : e.machine.nextWord = Instruction.encode .ret)
      (empty : e.machine.core.stack.addresses = []) : Fails e .stackUnderflow (e.machine.ahead 2)
  | called {addr : Address} (room : ¬ e.PastEnd) (word : e.machine.nextWord = Instruction.encode (.call addr))
      (full : 16 ≤ e.machine.core.stack.addresses.length) :
      Fails e (.stackOverflow (e.machine.core.pc.addr + 2)) (e.machine.ahead 2)

/-- A cycle either runs through or fails in one of the four ways. -/
theorem step_cases (e : Emulator τ) :
    (∃ after, ¬ e.PastEnd ∧ (e.machine.ahead 2).execute (.decode e.machine.nextWord) = .done after () ∧
      e.step = .done { e with
        machine := after
        journal := note e.journal (e.machine.ahead 2) (.decode e.machine.nextWord) after
        cycles := e.cycles + 1 } (.decode e.machine.nextWord)) ∨
    ∃ f after, e.Fails f after ∧ e.step = .stopped (e.withMachine after) f := by
  by_cases beyond : e.PastEnd
  · exact .inr ⟨_, _, .pastEnd beyond, step_of_lt beyond⟩
  have room : e.machine.core.pc.addr + 2 ≤ e.machine.core.pc.limit := Int.not_lt.1 beyond
  rcases (e.machine.ahead 2).execute_cases (.decode e.machine.nextWord) with
    ⟨after, ran⟩ | ⟨c, reads, met, far, ran⟩ | ⟨reads, empty, ran⟩ | ⟨addr, reads, full, ran⟩
  · exact .inl ⟨after, beyond, ran, step_of_done room ran⟩
  · have word := (Instruction.decode_eq_iff (by simp) _).1 reads
    rw [Machine.ahead_tested_ahead] at ran
    have fault : (e.machine.ahead 2).core.pc.addr + 2 = e.machine.core.pc.addr + 4 := by
      rw [Machine.core_ahead]; exact Int.add_assoc _ 2 2
    rw [fault] at ran far
    exact .inr ⟨_, _, .skipped beyond word ((e.machine.met_ahead_iff 2 c).1 met) far, step_of_stopped room ran⟩
  · have word := (Instruction.decode_eq_iff (by simp) _).1 reads
    exact .inr ⟨_, _, .returned beyond word empty, step_of_stopped room ran⟩
  · have word := (Instruction.decode_eq_iff (by simp) _).1 reads
    exact .inr ⟨_, _, .called beyond word full, step_of_stopped room ran⟩

/-- Each of the four ways makes a cycle fail. -/
theorem step_of_fails {e : Emulator τ} {f : Fault} {after : Machine τ} (fails : e.Fails f after) :
    e.step = .stopped (e.withMachine after) f := by
  cases fails with
  | pastEnd beyond => exact step_of_lt beyond
  | @skipped c room word met beyond =>
    have reads := (Instruction.decode_eq_iff (by simp) _).2 word
    have ran := Machine.skip_of_lt (m := e.machine.ahead 2) ((e.machine.met_ahead_iff 2 c).2 met)
      (show e.machine.core.pc.limit < e.machine.core.pc.addr + 2 + 2 by omega)
    rw [Machine.ahead_tested_ahead, Machine.core_ahead, Int.add_assoc] at ran
    exact step_of_stopped (Int.not_lt.1 room) (by rw [reads]; exact ran)
  | returned room word empty =>
    have reads := (Instruction.decode_eq_iff (by simp) _).2 word
    exact step_of_stopped (Int.not_lt.1 room) (by rw [reads]; exact Machine.execute_ret_of_nil empty)
  | @called addr room word full =>
    have reads := (Instruction.decode_eq_iff (by simp) _).2 word
    have ran := Machine.execute_call_of_le (m := e.machine.ahead 2) full addr
    exact step_of_stopped (Int.not_lt.1 room) (by rw [reads]; exact ran)

end Emulator
end Chip8
