import Chip8.Proofs.Course

/-!
The counter keeps to the program. As long as every jump and call goes to an even address from 0x200 to the end of the
program, the counter and the return addresses are such addresses themselves (`Core.Aligned`,
`Emulator.aligned_of_history`), so that every word executed is read from two neighbouring cells of the program, whatever
has been written there. What cycles keep also holds where a cycle begins (`Emulator.Carried.of_begun`).
-/
namespace Chip8
variable {τ : Type}

/-- An even address from 0x200 to the end of the program. -/
def ProgramCounter.Admits (p : ProgramCounter) (addr : Int) : Prop := addr % 2 = 0 ∧ 0x200 ≤ addr ∧ addr ≤ p.limit

instance (p : ProgramCounter) (addr : Int) : Decidable (p.Admits addr) :=
  inferInstanceAs (Decidable (addr % 2 = 0 ∧ 0x200 ≤ addr ∧ addr ≤ p.limit))

/-- Where the instruction goes if it is a jump or a call. -/
def Instruction.target? (V : Registers) : Instruction → Option Int
  | .jump addr | .call addr => some addr.toNat
  | .jumpFromV0 addr => some (addr.toNat + (V.get Registers.first).toNat : Nat)
  | _ => none

/-- The program is of that size, the counter stands at an admitted address, and the return addresses are admitted too
    and lie behind an instruction. -/
structure Core.Aligned (size : Nat) (c : Core) : Prop where
  limit : c.pc.limit = 0x200 + size
  counter : c.pc.Admits c.pc.addr
  returns : ∀ addr ∈ c.stack.addresses, c.pc.Admits addr ∧ 0x202 ≤ addr

namespace Core.Aligned
variable {size : Nat} {c : Core}

/-- The word at the counter lies within the program, in cells that were not wrapped to. -/
theorem word_inside (aligned : c.Aligned size) (fits : size ≤ room) (inside : c.pc.addr + 2 ≤ c.pc.limit) :
    0x200 ≤ c.pc.addr ∧ c.pc.addr + 1 < 0x200 + size ∧
    ((Memory.cell c.pc.addr).val : Int) = c.pc.addr ∧ ((Memory.cell (c.pc.addr + 1)).val : Int) = c.pc.addr + 1 := by
  obtain ⟨even, low, _⟩ := aligned.counter
  have limit := aligned.limit
  have small : size ≤ 3584 := fits
  simp only [Memory.cell]
  omega

theorem advance (aligned : c.Aligned size) (inside : c.pc.addr + 2 ≤ c.pc.limit) :
    Aligned size { c with pc := c.pc.advance } where
  limit := aligned.limit
  counter := by
    obtain ⟨even, low, _⟩ := aligned.counter
    refine ⟨?_, ?_, inside⟩
    · simp only [ProgramCounter.advance]; omega
    · simp only [ProgramCounter.advance]; omega
  returns := aligned.returns

/-- What an instruction makes of the core that is behind it is aligned if a jump or a call in it is well aimed, and a
    skip in it does not pass the end. -/
theorem flow {m : Machine τ} {i : Instruction} (flow : m.Flow i c) (aligned : m.core.Aligned size)
    (behind : 0x202 ≤ m.core.pc.addr) (aimed : ∀ addr, i.target? m.registers = some addr → m.core.pc.Admits addr)
    (skips : ∀ c, i = .skip c → c.Met m → m.core.pc.addr + 2 ≤ m.core.pc.limit) : c.Aligned size := by
  cases flow with
  | on | stored | pointed | storedAndPointed => exact ⟨aligned.limit, aligned.counter, aligned.returns⟩
  | jumped addr => exact ⟨aligned.limit, aimed _ rfl, aligned.returns⟩
  | jumpedFromV0 addr => exact ⟨aligned.limit, aimed _ rfl, aligned.returns⟩
  | skipped met => exact aligned.advance (skips _ rfl met)
  | @returned addr rest calls =>
    have returns := aligned.returns
    rw [calls] at returns
    obtain ⟨⟨back, _⟩, others⟩ := List.forall_mem_cons.1 returns
    exact ⟨aligned.limit, back, others⟩
  | called addr free =>
    exact ⟨aligned.limit, aimed _ rfl, List.forall_mem_cons.2 ⟨⟨aligned.counter, behind⟩, aligned.returns⟩⟩
  | waited x =>
    obtain ⟨even, _, high⟩ := aligned.counter
    have back : m.core.rewind = { m.core with pc := { m.core.pc with addr := m.core.pc.addr - 2 } } := by
      rw [Core.rewind, ProgramCounter.rewind, if_pos (by omega)]
    rw [back]
    refine ⟨aligned.limit, ⟨?_, ?_, ?_⟩, aligned.returns⟩
    · simp only; omega
    · simp only; omega
    · simp only; omega

end Core.Aligned

namespace Emulator
variable {size : Nat} {e : Emulator τ}

/-- The cycle runs through, and a jump or call in it goes to an admitted address. -/
structure Aimed (e : Emulator τ) : Prop where
  runs : ∃ i, e.step.result = .ok i
  target : ∀ addr, (Instruction.decode e.machine.nextWord).target? e.machine.registers = some addr →
    e.machine.core.pc.Admits addr

theorem aligned_step (aligned : e.machine.core.Aligned size) (aimed : e.Aimed) :
    e.step.state.machine.core.Aligned size := by
  rcases e.step_cases with ⟨after, beyond, ran, stepped⟩ | ⟨f, after, _, stepped⟩
  · have inside : e.machine.core.pc.addr + 2 ≤ e.machine.core.pc.limit := Int.not_lt.1 beyond
    have low : 0x202 ≤ (e.machine.ahead 2).core.pc.addr := by
      have low := aligned.counter.2.1
      rw [Machine.core_ahead]
      simp only
      omega
    have flow := (e.machine.ahead 2).execute_flow (.decode e.machine.nextWord)
    rw [ran, Attempt.state_done] at flow
    rw [stepped, Attempt.state_done]
    refine .flow flow (aligned.advance inside) low aimed.target ?_
    intro c reads met
    -- A skip that passed the end would have stopped the cycle.
    by_contra far
    rw [reads, Machine.execute, Machine.skip_of_lt met (Int.not_le.1 far)] at ran
    cases ran
  · obtain ⟨i, runs⟩ := aimed.runs
    rw [stepped] at runs
    cases runs

theorem aligned_carried (size : Nat) : Carried (τ := τ) Aimed fun e => e.machine.core.Aligned size where
  around {e after} aligned around := by
    have same : after.machine.core = e.machine.core :=
      congrArg (fun inside : Interior => inside.core) around.interior
    rw [same]
    exact aligned
  cycle := aligned_step

variable [Time τ] {P Q : Emulator τ → Prop}

namespace Carried

theorem of_begunDue (carried : Carried Q P) (now : τ) (budget : Nat) {e c : Emulator τ}
    {before rest : List (Emulator τ)} (holds : P e) (split : begunDue now budget e = before ++ c :: rest)
    (each : ∀ b ∈ before, Q b) : P c := by
  induction budget generalizing e before with
  | zero => simp [begunDue] at split
  | succ budget ih =>
    unfold begunDue at split
    by_cases due : e.due now
    · rw [if_pos due] at split
      have paced : P { e with lastCycle := e.lastCycle + e.interval } := carried.around holds ⟨rfl, rfl⟩
      cases before with
      | nil =>
        rw [← (List.cons.inj split).1]
        exact paced
      | cons b before =>
        obtain ⟨same, later⟩ := List.cons.inj split
        obtain ⟨first, each⟩ := List.forall_mem_cons.1 each
        rw [← same] at first
        have ran := carried.cycle paced first
        cases stepped : ({ e with lastCycle := e.lastCycle + e.interval } : Emulator τ).step with | mk after result =>
          rw [stepped] at later ran
          cases result with
          | ok i => exact ih ran later each
          | error f => simp at later
    · rw [if_neg due] at split
      simp at split

theorem of_begunPass (carried : Carried Q P) {e c : Emulator τ} {before rest : List (Emulator τ)} (holds : P e)
    (split : e.begunPass = before ++ c :: rest) (each : ∀ b ∈ before, Q b) : P c := by
  have read : P e.readClock := carried.around holds ⟨rfl, rfl⟩
  exact carried.of_begunDue _ _ read split each

theorem of_passesLoop (carried : Carried Q P) (polls : Nat → Poll) (first passes : Nat) {e c : Emulator τ}
    {before rest : List (Emulator τ)} (holds : P e)
    (split : (passesLoop polls first passes e).flatMap begunPass = before ++ c :: rest) (each : ∀ b ∈ before, Q b) :
    P c := by
  induction passes generalizing first e before with
  | zero => simp [passesLoop] at split
  | succ passes ih =>
    by_cases running : e.running = true
    · have polled : P (e.poll (polls first)) := carried.around holds (.poll e _)
      cases passed : (e.poll (polls first)).runOnce with | mk after result =>
        cases result with
        | ok goes =>
          rw [passesLoop_of_done polls first running passed, List.flatMap_cons] at split
          have onward (all : ∀ b ∈ (e.poll (polls first)).begunPass, Q b) : P after.idle := by
            have ran := carried.runOnce all polled
            rw [passed] at ran
            exact carried.around ran (.idle after)
          -- The cycle begins in a later pass, unless it is among those of the first.
          rcases List.append_eq_append_iff.1 split with ⟨between, whole, tail⟩ | ⟨part, inside, tail⟩
          · rw [whole, List.forall_mem_append] at each
            exact ih (first + 1) (onward each.1) tail each.2
          · cases part with
            | nil =>
              rw [List.append_nil] at inside
              rw [← inside] at each
              have tail : _ = [] ++ c :: rest := tail.symm
              exact ih (first + 1) (onward each) tail (List.forall_mem_nil _)
            | cons b part =>
              obtain ⟨rfl, _⟩ := List.cons.inj tail
              exact carried.of_begunPass polled inside each
        | error f =>
          rw [passesLoop_of_stopped polls first running passed, List.flatMap_singleton] at split
          exact carried.of_begunPass polled split each
    · rw [passesLoop_of_ended polls first running] at split
      simp at split

/-- What the cycles keep holds where a cycle of the next act begins, if it is kept by those before it. -/
theorem of_begun (carried : Carried Q P) {e c : Emulator τ} {a : Act τ} {before rest : List (Emulator τ)} (holds : P e)
    (split : e.begun a = before ++ c :: rest) (each : ∀ b ∈ before, Q b) : P c := by
  cases a with
  | step =>
    cases before with
    | nil => exact (List.cons.inj split).1 ▸ holds
    | cons b before => simp [begun] at split
  | catchUp now budget => exact carried.of_begunDue now budget holds split each
  | runOnce => exact carried.of_begunPass holds ((List.append_nil _).symm.trans split) each
  | run polls first passes => exact carried.of_passesLoop polls first passes holds split each
  | _ => simp [begun, passes] at split

end Carried

/-- As long as every cycle runs through and every jump and call in it is well aimed, the counter and the return
    addresses are aligned; and wherever a further cycle begins they still are, so that the word it executes is read from
    two cells of the program. -/
theorem aligned_of_history {s : Setup τ} {start e : Emulator τ} (starts : ofProgram s = .ok start)
    (history : start.History (Each Aimed) e) :
    e.machine.core.Aligned s.program.size ∧
    ∀ (a : Act τ) (before rest : List (Emulator τ)) (c : Emulator τ), e.begun a = before ++ c :: rest →
      (∀ b ∈ before, b.Aimed) →
      c.machine.core.Aligned s.program.size ∧
      (¬ c.PastEnd → 0x200 ≤ c.machine.core.pc.addr ∧ c.machine.core.pc.addr + 1 < 0x200 + s.program.size ∧
        ((Memory.cell c.machine.core.pc.addr).val : Int) = c.machine.core.pc.addr ∧
        ((Memory.cell (c.machine.core.pc.addr + 1)).val : Int) = c.machine.core.pc.addr + 1) := by
  obtain ⟨fits, _⟩ := start_of_ofProgram starts
  have first : start.machine.core.Aligned s.program.size := by
    rw [(started_of_ofProgram starts).machine]
    refine ⟨rfl, ⟨rfl, Int.le_refl _, ?_⟩, nofun⟩
    exact Int.le_add_of_nonneg_right (Int.natCast_nonneg _)
  have aligned := (aligned_carried s.program.size).of_history history first
  refine ⟨aligned, ?_⟩
  intro a before rest c split each
  have begins := (aligned_carried s.program.size).of_begun aligned split each
  exact ⟨begins, fun inside => begins.word_inside fits (Int.not_lt.1 inside)⟩

theorem aligned_of_history_loop : ∃ start : Emulator Rat, ofProgram (.plain #[0x12, 0x00]) = .ok start ∧ start.Aimed ∧
    start.step.state.machine.core.Aligned 2 := by
  obtain ⟨start, starts, started⟩ := exists_plain #[0x12, 0x00] (by decide)
  have counter : start.machine.core.pc = ⟨0x200, 0x202⟩ := by rw [started.machine]; rfl
  have reads : Instruction.decode start.machine.nextWord = .jump 0x200 := by
    rw [started.nextWord (by decide)]
    decide
  have room : start.machine.core.pc.addr + 2 ≤ start.machine.core.pc.limit := by rw [counter]; decide
  have ran := step_of_done (e := start) room (by rw [reads]; rfl)
  have aimed : start.Aimed := by
    refine ⟨⟨_, by rw [ran]; rfl⟩, ?_⟩
    intro addr target
    rw [reads] at target
    cases target
    rw [counter]
    decide
  have history : start.History (Each Aimed) start.step.state := .snoc .nil (a := .step) (each_step aimed)
  exact ⟨start, starts, aimed, (aligned_of_history starts history).1⟩

end Emulator

end Chip8
