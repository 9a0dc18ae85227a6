import Chip8.Proofs.History

/-!
Calls and their returns. A cycle leaves the open calls alone, opens one or closes the latest one
(`Emulator.calls_step`). So an open call and those before it stay what they are while no return closes it
(`Emulator.prefix_carried`), and the return that closes it goes behind the call (`Emulator.return_of_call`).
-/
namespace Chip8
variable {τ : Type}

/-- Only calls and returns touch the stack. -/
theorem Machine.stack_execute (m : Machine τ) {i : Instruction} (noReturn : i ≠ .ret) (noCall : ∀ addr, i ≠ .call addr) :
    (m.execute i).state.core.stack = m.core.stack := by
  have flow := m.execute_flow i
  generalize (m.execute i).state.core = core at flow ⊢
  cases flow with
  | returned => exact absurd rfl noReturn
  | called addr => exact absurd rfl (noCall addr)
  | _ => rfl

namespace Emulator

/-- The return addresses of the open calls, the latest last. -/
def calls (e : Emulator τ) : List Int := e.machine.core.stack.toList

theorem calls_of_stack {e after : Emulator τ} (same : after.machine.core.stack = e.machine.core.stack) :
    after.calls = e.calls := by
  rw [calls, same]
  rfl

theorem calls_of_cons {e after : Emulator τ} {addr : Int}
    (pushed : after.machine.core.stack.addresses = addr :: e.machine.core.stack.addresses) :
    after.calls = e.calls ++ [addr] := by
  rw [calls, CallStack.toList, pushed, List.reverse_cons]
  rfl

/-- A cycle leaves the open calls alone, opens one or closes the latest one. -/
theorem calls_step (e : Emulator τ) :
    ((∀ addr, e.step.result ≠ .ok (.call addr)) ∧ e.step.state.calls = e.calls) ∨
    (∃ addr, e.step.result = .ok (.call addr) ∧ e.step.state.calls = e.calls ++ [e.machine.core.pc.addr + 2]) ∨
    (e.step.result = .ok .ret ∧ e.calls = e.step.state.calls ++ [e.step.state.machine.core.pc.addr]) := by
  rcases e.step_cases with ⟨after, _, ran, stepped⟩ | ⟨f, after, fails, stepped⟩
  · rw [stepped]
    simp only [Attempt.result_done, Attempt.state_done]
    generalize Instruction.decode e.machine.nextWord = i at ran ⊢
    by_cases noReturn : i = .ret
    · subst noReturn
      cases open_ : (e.machine.ahead 2).core.stack.addresses with
      | nil =>
        rw [Machine.execute_ret_of_nil open_] at ran
        cases ran
      | cons addr rest =>
        rw [Machine.execute_ret_of_cons open_] at ran
        cases ran
        exact .inr (.inr ⟨rfl, calls_of_cons open_⟩)
    by_cases noCall : ∃ addr, i = .call addr
    · obtain ⟨addr, rfl⟩ := noCall
      rcases Nat.lt_or_ge (e.machine.ahead 2).core.stack.addresses.length 16 with free | full
      · rw [Machine.execute_call_of_lt free] at ran
        cases ran
        exact .inr (.inl ⟨addr, rfl, calls_of_cons rfl⟩)
      · rw [Machine.execute_call_of_le full] at ran
        cases ran
    have kept := (e.machine.ahead 2).stack_execute noReturn (not_exists.1 noCall)
    rw [ran, Attempt.state_done] at kept
    refine .inl ⟨?_, calls_of_stack kept⟩
    intro addr called
    exact noCall ⟨addr, Except.ok.inj called⟩
  · rw [stepped]
    refine .inl ⟨nofun, calls_of_stack ?_⟩
    cases fails with
    | skipped => simp [withMachine]
    | _ => rfl

theorem calls_of_call {e : Emulator τ} {addr : Address} (called : e.step.result = .ok (.call addr)) :
    e.step.state.calls = e.calls ++ [e.machine.core.pc.addr + 2] := by
  rcases e.calls_step with ⟨other, _⟩ | ⟨_, _, opened⟩ | ⟨returned, _⟩
  · exact absurd called (other addr)
  · exact opened
  · rw [called] at returned
    cases returned

/-- Calls stay open in a cycle that leaves as many open. -/
theorem prefix_step {e : Emulator τ} {base : List Int} (below : base <+: e.calls)
    (deep : base.length ≤ e.step.state.calls.length) : base <+: e.step.state.calls := by
  rcases e.calls_step with ⟨_, same⟩ | ⟨_, _, opened⟩ | ⟨_, closed⟩
  · rw [same]
    exact below
  · rw [opened]
    exact below.trans (List.prefix_append _ _)
  · rw [closed] at below
    rcases List.prefix_concat_iff.1 below with whole | inside
    · rw [whole, List.length_append, List.length_singleton] at deep
      omega
    · exact inside

/-- The cycle that leaves fewer calls open is the return from the last of them. -/
theorem return_of_prefix {e : Emulator τ} {base : List Int} {addr : Int} (below : base ++ [addr] <+: e.calls)
    (back : e.step.state.calls.length ≤ base.length) :
    e.step.result = .ok .ret ∧ e.step.state.machine.core.pc.addr = addr ∧ e.step.state.calls = base := by
  have deep := below.length_le
  rw [List.length_append, List.length_singleton] at deep
  rcases e.calls_step with ⟨_, same⟩ | ⟨_, _, opened⟩ | ⟨returned, closed⟩
  · rw [same] at back
    omega
  · rw [opened, List.length_append, List.length_singleton] at back
    omega
  · rw [closed] at below
    have whole : base ++ [addr] = e.step.state.calls ++ [e.step.state.machine.core.pc.addr] := by
      rcases List.prefix_concat_iff.1 below with whole | inside
      · exact whole
      · have long := inside.length_le
        rw [List.length_append, List.length_singleton] at long
        omega
    obtain ⟨same, last⟩ := List.append_inj' whole rfl
    exact ⟨returned, (List.singleton_inj.1 last).symm, same.symm⟩

/-- Calls stay open all along a history whose cycles leave as many open. -/
theorem prefix_carried (base : List Int) :
    Carried (fun c : Emulator τ => base.length ≤ c.step.state.calls.length) fun e => base <+: e.calls where
  around below around := by
    rw [calls_of_stack (congrArg (fun inside : Interior => inside.core.stack) around.interior)]
    exact below
  cycle := prefix_step

variable [Time τ]

/-- From a call on, as long as no cycle leaves fewer calls open than it did, the calls open before it stay at the
    bottom with the address behind the call on top of them. So the first cycle that leaves no more calls open than
    there were before the call is a return, which goes behind the call and leaves those open. -/
theorem return_of_call {e after : Emulator τ} {addr : Address} (called : e.step.result = .ok (.call addr))
    (history : e.step.state.History (Each fun c => e.calls.length + 1 ≤ c.step.state.calls.length) after) :
    e.calls ++ [e.machine.core.pc.addr + 2] <+: after.calls ∧
    (after.step.state.calls.length ≤ e.calls.length →
      after.step.result = .ok .ret ∧ after.step.state.machine.core.pc.addr = e.machine.core.pc.addr + 2 ∧
      after.step.state.calls = e.calls) := by
  have carried := prefix_carried (τ := τ) (e.calls ++ [e.machine.core.pc.addr + 2])
  rw [List.length_append, List.length_singleton] at carried
  have opened : e.calls ++ [e.machine.core.pc.addr + 2] <+: e.step.state.calls :=
    ⟨[], by rw [List.append_nil, calls_of_call called]⟩
  have below := carried.of_history history opened
  exact ⟨below, return_of_prefix below⟩

/-- The subroutine sets V0 before it returns. -/
theorem return_of_call_first : ∃ e : Emulator Rat,
    ofProgram (.plain #[0x22, 0x04, 0x12, 0x00, 0x60, 0x01, 0x00, 0xEE]) = .ok e ∧
    let inside := e.step.state
    let after := inside.step.state
    e.step.result = .ok (.call 0x204) ∧ inside.step.result = .ok (.setByte 0 1) ∧ after.step.result = .ok .ret ∧
    after.step.state.machine.core.pc.addr = 0x202 ∧ after.step.state.calls = e.calls := by
  obtain ⟨e, starts, started⟩ := exists_plain #[0x22, 0x04, 0x12, 0x00, 0x60, 0x01, 0x00, 0xEE] (by decide)
  have counter : e.machine.core.pc = ⟨0x200, 0x208⟩ := by rw [started.machine]; rfl
  have empty : e.machine.core.stack.addresses = [] := by rw [started.machine]; rfl
  have first : e.machine.nextWord = Instruction.encode (.call 0x204) := (started.nextWord (by decide)).trans (by decide)
  have third : e.machine.core.memory.word 0x204 = Instruction.encode (.setByte 0 1) :=
    (started.word (i := 4) (by decide) (by decide)).trans (by decide)
  have fourth : e.machine.core.memory.word 0x206 = Instruction.encode .ret :=
    (started.word (i := 6) (by decide) (by decide)).trans (by decide)
  -- The call, what it leads to, and the return.
  have free : (e.machine.ahead 2).core.stack.addresses.length < 16 := by rw [Machine.core_ahead, empty]; decide
  have call := step_of_word (by simp) first (by rw [counter]; decide) (Machine.execute_call_of_lt free 0x204)
  have called : e.step.result = .ok (.call 0x204) := by rw [call, Attempt.result_done]
  have entered : e.step.state.machine.core = { e.machine.core with stack := ⟨[0x202]⟩, pc := ⟨0x204, 0x208⟩ } := by
    rw [call, Attempt.state_done]
    simp only [Machine.core_ahead, counter, empty, ProgramCounter.jump]
    rfl
  have set := step_of_word (e := e.step.state) (i := .setByte 0 1) (by simp) (by rw [Machine.nextWord, entered, third])
    (by rw [entered]; exact (by decide : (0x204 : Int) + 2 ≤ 0x208)) (by rw [Machine.execute])
  have ran : e.step.state.step.result = .ok (.setByte 0 1) := by rw [set, Attempt.result_done]
  have left : e.step.state.step.state.machine.core =
      { e.machine.core with stack := ⟨[0x202]⟩, pc := ⟨0x206, 0x208⟩ } := by
    rw [set, Attempt.state_done]
    simp only [Machine.core_ahead, entered]
    rfl
  have opened : (e.step.state.step.state.machine.ahead 2).core.stack.addresses = [0x202] := by
    rw [Machine.core_ahead, left]
  have ret := step_of_word (e := e.step.state.step.state) (i := .ret) (by simp) (by rw [Machine.nextWord, left, fourth])
    (by rw [left]; exact (by decide : (0x206 : Int) + 2 ≤ 0x208)) (Machine.execute_ret_of_cons opened)
  have deep : e.calls.length + 1 ≤ e.step.state.step.state.calls.length := by
    simp only [calls, CallStack.toList, left, empty]
    decide
  have back : e.step.state.step.state.step.state.calls.length ≤ e.calls.length := by
    rw [ret, Attempt.state_done]
    exact Nat.zero_le _
  obtain ⟨_, goesBack⟩ := return_of_call called (.snoc .nil (each_step deep))
  obtain ⟨returned, behind, same⟩ := goesBack back
  rw [counter] at behind
  exact ⟨e, starts, called, ran, returned, behind, same⟩

end Emulator

end Chip8
