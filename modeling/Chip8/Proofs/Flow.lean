import Chip8.Proofs.Cycle

/-!
Where an instruction takes the counter, the call stack, memory and I. There are ten ways (`Machine.Flow`,
`Machine.execute_flow`). None moves the end of the program (`Machine.Flow.limit_eq`), and I keeps its sixteen
bits (`Machine.Flow.index_bounds`). Only a wait for a key touches the mark that one has begun
(`Machine.waiting_execute`).
-/
namespace Chip8
variable {τ : Type}

namespace Machine
variable {m : Machine τ}

/-- What an instruction makes of the core. -/
inductive Flow (m : Machine τ) : Instruction → Core → Prop where
  | on (i : Instruction) : Flow m i m.core
  | jumped (addr : Address) : Flow m (.jump addr) (m.core.jump addr.toNat)
  | jumpedFromV0 (addr : Address) :
      Flow m (.jumpFromV0 addr) (m.core.jump (addr.toNat + (m.registers.get Registers.first).toNat))
  | skipped {c : Condition} (met : c.Met m) : Flow m (.skip c) { m.core with pc := m.core.pc.advance }
  | returned {addr : Int} {rest : List Int} (calls : m.core.stack.addresses = addr :: rest) :
      Flow m .ret { m.core with stack := ⟨rest⟩, pc := m.core.pc.jump addr }
  | called (addr : Address) (free : m.core.stack.addresses.length < 16) :
      Flow m (.call addr)
        { m.core with stack := ⟨m.core.pc.addr :: m.core.stack.addresses⟩, pc := m.core.pc.jump addr.toNat }
  | waited (x : Register) : Flow m (.waitKey x) m.core.rewind
  | stored (i : Instruction) (bs : List Byte) :
      Flow m i { m.core with memory := m.core.memory.write m.core.index.addr bs }
  | pointed (i : Instruction) (addr : Int) : Flow m i (m.core.setIndex addr)
  | storedAndPointed (x : Register) (bs : List Byte) (addr : Int) :
      Flow m (.storeRegisters x)
        { m.core with memory := m.core.memory.write m.core.index.addr bs, index := .ofInt addr }

/-! ### Waits -/

theorem waitKey_of_none (x : Register) (none : m.look.awaited? = none) :
    m.waitKey x = { m.look with waiting := true, core := m.core.rewind } := by
  simp only [waitKey, none, core_look]

theorem waitKey_of_some (x : Register) {key : Key} (found : m.look.awaited? = some key) :
    m.waitKey x = { m.look with waiting := false, registers := m.registers.set x (BitVec.ofNat 8 key) } := by
  simp only [waitKey, found, registers_look]

/-- A wait that goes on leaves the counter where it was before the instruction was fetched. -/
theorem waitKey_ahead_of_none (x : Register) (inMemory : 0 ≤ m.core.pc.addr) (none : m.look.awaited? = none) :
    (m.ahead 2).waitKey x = { m.look with waiting := true } := by
  rw [waitKey_of_none x (show (m.ahead 2).look.awaited? = .none from none)]
  have back : (m.ahead 2).core.rewind = m.core := by
    rw [Core.rewind, core_ahead]
    exact congrArg (fun pc => { m.core with pc }) (m.core.pc.rewind_advance inMemory)
  rw [back]
  simp only [look, ahead]

theorem waitKey_ahead_of_some (x : Register) {key : Key} (found : m.look.awaited? = some key) :
    (m.ahead 2).waitKey x =
      { m.look.ahead 2 with waiting := false, registers := m.registers.set x (BitVec.ofNat 8 key) } :=
  waitKey_of_some x (show (m.ahead 2).look.awaited? = some key from found)

/-- Every other instruction leaves the mark of a wait as it was. -/
theorem waiting_execute {i : Instruction} (other : ∀ x, i ≠ .waitKey x) :
    (m.execute i).state.waiting = m.waiting := by
  cases i with
  | waitKey x => exact absurd rfl (other x)
  | skip c =>
    rw [execute, skip_eq]
    split
    · simp only [Attempt.state_within, waiting_tested]
    · rw [Attempt.state_done, waiting_tested]
  | _ => rfl

/-! ### The core -/

theorem execute_flow (m : Machine τ) (i : Instruction) : m.Flow i (m.execute i).state.core := by
  cases i with
  | ret =>
    cases calls : m.core.stack.addresses with
    | nil =>
      rw [execute_ret_of_nil calls, Attempt.state_stopped]
      exact .on _
    | cons addr rest =>
      rw [execute_ret_of_cons calls]
      exact .returned calls
  | call addr =>
    rcases Nat.lt_or_ge m.core.stack.addresses.length 16 with free | full
    · rw [execute_call_of_lt free]
      exact .called addr free
    · rw [execute_call_of_le full]
      exact .on _
  | skip c =>
    by_cases met : c.Met m
    · by_cases room : m.core.pc.addr + 2 ≤ m.core.pc.limit
      · rw [execute, skip_of_le met room, Attempt.state_done, core_ahead, core_tested]
        exact .skipped met
      · rw [execute, skip_of_lt met (Int.not_le.1 room), Attempt.state_stopped, core_ahead, core_tested]
        exact .skipped met
    · rw [execute, skip_of_not_met met, Attempt.state_done, core_tested]
      exact .on _
  | waitKey x =>
    cases found : m.look.awaited? with
    | none => rw [execute, waitKey_of_none x found]; exact .waited x
    | some key =>
      simp only [execute, waitKey_of_some x found, Attempt.state_done, core_look]
      exact .on _
  | storeRegisters x =>
    simp only [execute, storeRegisters, indexAfter]
    split
    · exact .storedAndPointed x _ _
    · exact .stored _ _
  | loadRegisters x =>
    simp only [execute, loadRegisters, indexAfter]
    split
    · exact .pointed _ _
    · exact .on _
  | jump addr => exact .jumped addr
  | jumpFromV0 addr => exact .jumpedFromV0 addr
  | storeDecimal x => exact .stored _ _
  | setIndex addr | addIndex x | pointGlyph x => exact .pointed _ _
  | _ => exact .on _

namespace Flow
variable {i : Instruction} {core : Core}

theorem limit_eq (flow : m.Flow i core) : core.pc.limit = m.core.pc.limit := by
  cases flow with
  | waited x =>
    simp only [Core.rewind, ProgramCounter.rewind]
    split <;> rfl
  | _ => rfl

/-- I keeps sixteen bits. -/
theorem index_bounds (flow : m.Flow i core) (bounds : 0 ≤ m.core.index.addr ∧ m.core.index.addr < 65536) :
    0 ≤ core.index.addr ∧ core.index.addr < 65536 := by
  cases flow with
  | pointed _ addr | storedAndPointed _ _ addr => exact IndexRegister.ofInt_addr_bounds addr
  | _ => exact bounds

/-- There are never more than sixteen calls open. -/
theorem length_stack_le (flow : m.Flow i core) (few : m.core.stack.addresses.length ≤ 16) :
    core.stack.addresses.length ≤ 16 := by
  cases flow with
  | returned calls => rw [calls, List.length_cons] at few; exact Nat.le_of_succ_le few
  | called addr free => exact free
  | _ => exact few

end Flow

end Machine

namespace Emulator

/-! ### Cycles that wait -/

theorem step_of_waitKey {e : Emulator τ} {x : Register} (word : e.machine.nextWord = Instruction.encode (.waitKey x))
    (room : e.machine.core.pc.addr + 2 ≤ e.machine.core.pc.limit) :
    e.step = .done { e with
      machine := (e.machine.ahead 2).waitKey x
      journal := note e.journal (e.machine.ahead 2) (.waitKey x) ((e.machine.ahead 2).waitKey x)
      cycles := e.cycles + 1 } (.waitKey x) := by
  have ran : (e.machine.ahead 2).execute (.waitKey x) = .done ((e.machine.ahead 2).waitKey x) () := rfl
  exact step_of_word (by simp) word room ran

end Emulator

end Chip8
