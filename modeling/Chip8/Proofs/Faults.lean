import Chip8.Proofs.Numbers
import Chip8.Proofs.Standing

/-!
Which cycles fail, and how. A cycle is stopped by a fault exactly in one of four ways
(`Emulator.result_step_eq_error_iff`), never by an operand out of range (`Emulator.cycleNumbers_eq`), and what it
leaves is the machine as it was but for the counter and one look at the keypad. `Emulator.Reachable.step_faults`
states this of every state that a program can lead to.
-/
namespace Chip8
variable {τ : Type}

/-- A cycle of the machine alone, with the operands of the instruction as numbers. -/
def Machine.cycleNumbers (m : Machine τ) : Except NumberError (Attempt (Machine τ) Unit) :=
  let fetched := m.core.fetch.within fun core => { m with core }
  match fetched.result with
  | .ok w => fetched.state.executeNumbers w
  | .error f => .ok (.stopped fetched.state f)

namespace Emulator
variable {e : Emulator τ}

/-- Operands are never out of range, and numbers do what a cycle does. -/
theorem cycleNumbers_eq (e : Emulator τ) : e.machine.cycleNumbers = .ok (e.step.forget.within machine) := by
  rcases Int.lt_or_le e.machine.core.pc.limit (e.machine.core.pc.addr + 2) with beyond | room
  · simp only [Machine.cycleNumbers, Core.fetch_of_lt beyond, step_of_lt beyond]
    rfl
  · simp only [Machine.cycleNumbers, Core.fetch_of_le room, Attempt.within_done, Attempt.result_done,
      Attempt.state_done, Machine.executeNumbers_eq]
    cases ran : (e.machine.ahead 2).execute (.decode e.machine.nextWord) with | mk after result =>
      cases result with
      | ok _ => rw [step_of_done room ran]; exact congrArg Except.ok ran
      | error f => rw [step_of_stopped room ran]; exact congrArg Except.ok ran

/-! ### Each fault -/

/-- The ways in which a cycle fails are all the faults that there are. -/
theorem result_step_eq_error_iff {f : Fault} : e.step.result = .error f ↔ ∃ after, e.Fails f after := by
  constructor
  · intro failed
    rcases e.step_cases with ⟨after, _, _, ran⟩ | ⟨g, after, fails, stopped⟩
    · rw [ran] at failed
      cases failed
    · rw [stopped] at failed
      cases failed
      exact ⟨after, fails⟩
  · rintro ⟨after, fails⟩
    rw [step_of_fails fails, Attempt.result_stopped]

/-- An instruction of the table that is no skip does not skip past the end. -/
theorem not_skipsPastEnd {i : Instruction} (known : ∀ w, i ≠ .unknown w) (other : ∀ c, i ≠ .skip c)
    (word : e.machine.nextWord = i.encode) : ¬ e.SkipsPastEnd := by
  rintro ⟨c, skips, _, _⟩
  exact other c ((Instruction.encode_inj known (by simp)).1 (word.symm.trans skips))

theorem finished_iff : (∃ pc, e.step.result = .error (.finished pc)) ↔ e.PastEnd ∨ e.SkipsPastEnd := by
  simp only [result_step_eq_error_iff]
  constructor
  · rintro ⟨pc, after, fails⟩
    cases fails with
    | pastEnd beyond => exact .inl beyond
    | skipped room word met beyond => exact .inr ⟨_, word, met, beyond⟩
  · intro past
    by_cases beyond : e.PastEnd
    · exact ⟨_, _, .pastEnd beyond⟩
    · obtain ⟨c, word, met, far⟩ := past.resolve_left beyond
      exact ⟨_, _, .skipped beyond word met far⟩

theorem stackUnderflow_iff : e.step.result = .error .stackUnderflow ↔
    ¬ (e.PastEnd ∨ e.SkipsPastEnd) ∧ e.machine.nextWord = Instruction.encode .ret ∧
      e.machine.core.stack.addresses = [] := by
  rw [result_step_eq_error_iff]
  constructor
  · rintro ⟨after, fails⟩
    cases fails with
    | returned room word empty =>
      exact ⟨not_or.2 ⟨room, not_skipsPastEnd (by simp) (by simp) word⟩, word, empty⟩
  · rintro ⟨inside, word, empty⟩
    exact ⟨_, .returned (not_or.1 inside).1 word empty⟩

theorem stackOverflow_iff : (∃ addr, e.step.result = .error (.stackOverflow addr)) ↔
    ¬ (e.PastEnd ∨ e.SkipsPastEnd) ∧ (∃ addr, e.machine.nextWord = Instruction.encode (.call addr)) ∧
      16 ≤ e.machine.core.stack.addresses.length := by
  simp only [result_step_eq_error_iff]
  constructor
  · rintro ⟨addr, after, fails⟩
    cases fails with
    | called room word full =>
      exact ⟨not_or.2 ⟨room, not_skipsPastEnd (by simp) (by simp) word⟩, ⟨_, word⟩, full⟩
  · rintro ⟨inside, ⟨addr, word⟩, full⟩
    exact ⟨_, _, .called (not_or.1 inside).1 word full⟩

/-! ### What a failed cycle leaves -/

/-- Only the counter moved, by two bytes, or by four and with a look at the keypad if the test of a skip looks. -/
theorem state_of_failed {f : Fault} (failed : e.step.result = .error f) :
    ((e.PastEnd ∨ ¬ e.SkipsPastEnd) ∧ e.step.state = e.withMachine (e.machine.ahead 2)) ∨
    (¬ e.PastEnd ∧ ∃ c, e.machine.nextWord = Instruction.encode (.skip c) ∧ c.Met e.machine ∧
      e.machine.core.pc.limit < e.machine.core.pc.addr + 4 ∧
      e.step.state = e.withMachine ((e.machine.tested c).ahead 4)) := by
  obtain ⟨after, fails⟩ := result_step_eq_error_iff.1 failed
  have left : e.step.state = e.withMachine after := by rw [step_of_fails fails, Attempt.state_stopped]
  cases fails with
  | pastEnd beyond => exact .inl ⟨.inl beyond, left⟩
  | skipped room word met beyond => exact .inr ⟨room, _, word, met, beyond, left⟩
  | returned room word empty => exact .inl ⟨.inr (not_skipsPastEnd (by simp) (by simp) word), left⟩
  | called room word full => exact .inl ⟨.inr (not_skipsPastEnd (by simp) (by simp) word), left⟩

variable [Time τ]

/-- In every state that a program leads to, a cycle finds all its operands in range. It finishes exactly past the
    end of the program or with a skip that leads there; otherwise it fails exactly at a return without a call or
    at a call from sixteen open ones. A cycle that fails moves the counter and looks at the keypad if a skip does,
    and all else is as it was. -/
theorem Reachable.step_faults {s : Setup τ} (reached : e.Reachable s) :
    e.machine.cycleNumbers = .ok (e.step.forget.within machine) ∧
    ((∃ pc, e.step.result = .error (.finished pc)) ↔ e.PastEnd ∨ e.SkipsPastEnd) ∧
    (e.step.result = .error .stackUnderflow ↔ ¬ (e.PastEnd ∨ e.SkipsPastEnd) ∧
      e.machine.nextWord = 0x00EE ∧ e.machine.core.stack.addresses = []) ∧
    ((∃ addr, e.step.result = .error (.stackOverflow addr)) ↔ ¬ (e.PastEnd ∨ e.SkipsPastEnd) ∧
      (∃ nnn, e.machine.nextWord = Instruction.encode (.call nnn)) ∧ e.machine.core.stack.addresses.length = 16) ∧
    ∀ f, e.step.result = .error f →
      ((e.PastEnd ∨ ¬ e.SkipsPastEnd) ∧ e.step.state = e.withMachine (e.machine.ahead 2)) ∨
      (¬ e.PastEnd ∧ ∃ c, e.machine.nextWord = Instruction.encode (.skip c) ∧ c.Met e.machine ∧
        e.machine.core.pc.limit < e.machine.core.pc.addr + 4 ∧
        e.step.state = e.withMachine ((e.machine.tested c).ahead 4)) := by
  refine ⟨e.cycleNumbers_eq, finished_iff, stackUnderflow_iff, ?_, fun f => state_of_failed⟩
  have few := reached.standing.length_le
  have full : 16 ≤ e.machine.core.stack.addresses.length ↔ e.machine.core.stack.addresses.length = 16 := by omega
  rw [stackOverflow_iff, full]

theorem step_faults_return : ∃ e : Emulator Rat, e.Reachable (.plain #[0x00, 0xEE]) ∧
    e.step.result = .error .stackUnderflow ∧ e.step.state = e.withMachine (e.machine.ahead 2) := by
  obtain ⟨e, starts, started⟩ := exists_plain #[0x00, 0xEE] (by decide)
  have reached := Reachable.of_ofProgram starts
  obtain ⟨_, _, underflow, _, left⟩ := reached.step_faults
  have word : e.machine.nextWord = 0x00EE := (started.nextWord (by decide)).trans rfl
  have empty : e.machine.core.stack.addresses = [] := by rw [started.machine]; rfl
  have inside : ¬ e.PastEnd := by rw [PastEnd, started.machine]; decide
  have still : ¬ e.SkipsPastEnd := not_skipsPastEnd (i := .ret) (by simp) (by simp) word
  have failed := underflow.2 ⟨not_or.2 ⟨inside, still⟩, word, empty⟩
  rcases left _ failed with ⟨_, same⟩ | ⟨_, c, skips, met, far, _⟩
  · exact ⟨e, reached, failed, same⟩
  · exact absurd ⟨c, skips, met, far⟩ still

end Emulator

end Chip8
