import Mathlib.Data.List.Induction
import Chip8.Proofs.Standing
import Chip8.Proofs.Table

/-!
The footprint of an instruction: the parts of the machine that it may write (`Instruction.Writes`). Every other part is
left as it was, whether the instruction runs through or is stopped (`Machine.agrees_of_not_writes`); a word that is no
instruction leaves everything (`Emulator.Reachable.footprint`).
-/
namespace Chip8
variable {τ : Type}

/-- A part of the machine that instructions work on. -/
inductive Part where
  | cell (a : Fin 4096)
  | register (x : Register)
  | index
  | stack
  | delay
  | sound
  | pixels
  | dirty
  | keypad
  | waiting
  | counter
  | limit

/-- The operation has no flag. -/
def AluOp.isPlain : AluOp → Bool
  | copy | or | and | xor => true
  | _ => false

/-- The instruction may write the part, in the machine that it is executed on. -/
def Instruction.Writes (m : Machine τ) (i : Instruction) : Part → Prop
  | .cell a => match i with
    | .storeDecimal _ => ∃ k ≤ 2, a = Memory.cell (m.core.index.addr + (k : Nat))
    | .storeRegisters x => ∃ k ≤ x.val, a = Memory.cell (m.core.index.addr + (k : Nat))
    | _ => False
  | .register v => match i with
    | .setByte x _ | .addByte x _ | .random x _ | .readDelay x | .waitKey x => v = x
    | .alu op x _ => v = x ∨ op.isPlain = false ∧ v = Registers.flag
    | .draw _ _ _ => v = Registers.flag
    | .addIndex _ => m.dialect.indexOverflow = true ∧ v = Registers.flag
    | .loadRegisters x => v ≤ x
    | _ => False
  | .index => match i with
    | .setIndex _ | .addIndex _ | .pointGlyph _ => True
    | .storeRegisters _ | .loadRegisters _ => m.dialect.loadStoreIncrementsIndex = true
    | _ => False
  | .stack => match i with
    | .ret | .call _ => True
    | _ => False
  | .delay => match i with
    | .setDelay _ => True
    | _ => False
  | .sound => match i with
    | .setSound _ => True
    | _ => False
  | .pixels | .dirty => match i with
    | .clearScreen | .draw _ _ _ => True
    | _ => False
  | .keypad => match i with
    | .skip c => c.readsKeys = true
    | .waitKey _ => True
    | _ => False
  | .waiting => match i with
    | .waitKey _ => True
    | _ => False
  | .counter => match i with
    | .ret | .jump _ | .call _ | .jumpFromV0 _ => True
    | .skip c => c.Met m
    | .waitKey x => (m.waitKey x).waiting = true
    | _ => False
  | .limit => False

/-- Cells that are not among those written keep what they held. -/
theorem Memory.cells_write (m : Memory) (a : Int) (bs : List Byte) {c : Fin 4096}
    (outside : ∀ k < bs.length, c ≠ cell (a + (k : Nat))) : (m.write a bs).cells[c] = m.cells[c] := by
  induction bs using List.reverseRecOn with
  | nil => rfl
  | append_singleton bs b ih =>
    rw [List.length_append, List.length_singleton] at outside
    have last : cell (a + bs.length) ≠ c := (outside bs.length (Nat.lt_succ_self _)).symm
    have earlier := ih fun k inside => outside k (Nat.lt_succ_of_lt inside)
    rw [write_concat, ← earlier]
    simp only [set, Fin.getElem_fin]
    exact Vector.getElem_set_ne _ _ (fun same => last (Fin.ext same))

namespace Registers
variable (V : Registers) {v : Register}

theorem get_setFlag_of_ne (b : Bool) (other : v ≠ flag) : (V.setFlag b).get v = V.get v :=
  V.get_set_of_ne _ other.symm

theorem get_alu_of_ne {op : AluOp} {x : Register} (y : Register) (other : v ≠ x)
    (flagged : op.isPlain = false → v ≠ flag) : (V.alu op x y).get v = V.get v := by
  have stored (r : Byte) : (V.set x r).get v = V.get v := V.get_set_of_ne r other.symm
  cases op with
  | copy | or | and | xor => exact stored _
  | _ => exact (get_setFlag_of_ne _ _ (flagged rfl)).trans (stored _)

theorem length_upTo (x : Register) : (V.upTo x).length = x + 1 := by
  simp only [upTo, List.length_take, Vector.length_toList]
  exact Nat.min_eq_left x.isLt

theorem get_putAll_of_le (bs : List Byte) (beyond : bs.length ≤ v.val) : (V.putAll bs).get v = V.get v := by
  rw [get_putAll, List.getElem?_eq_none_iff.2 beyond, Option.getD_none]

end Registers

namespace Machine
variable {m after : Machine τ} {i : Instruction}

/-- The second machine agrees with the first in the part. -/
def Agrees (m after : Machine τ) : Part → Prop
  | .cell a => after.core.memory.cells[a] = m.core.memory.cells[a]
  | .register x => after.registers.get x = m.registers.get x
  | .index => after.core.index = m.core.index
  | .stack => after.core.stack = m.core.stack
  | .delay => after.delay = m.delay
  | .sound => after.sound = m.sound
  | .pixels => after.screen.pixels = m.screen.pixels
  | .dirty => after.screen.dirty = m.screen.dirty
  | .keypad => after.keypad = m.keypad
  | .waiting => after.waiting = m.waiting
  | .counter => after.core.pc.addr = m.core.pc.addr
  | .limit => after.core.pc.limit = m.core.pc.limit

/-! ### What some instructions leave -/

theorem state_ret (m : Machine τ) : ∃ stack addr,
    (m.execute .ret).state = { m with core := { m.core with stack, pc := { m.core.pc with addr } } } := by
  cases calls : m.core.stack.addresses with
  | nil =>
    rw [execute_ret_of_nil calls]
    exact ⟨m.core.stack, m.core.pc.addr, rfl⟩
  | cons addr rest =>
    rw [execute_ret_of_cons calls]
    exact ⟨⟨rest⟩, addr, rfl⟩

theorem state_call (m : Machine τ) (addr : Address) : ∃ stack addr', (m.execute (.call addr)).state =
    { m with core := { m.core with stack, pc := { m.core.pc with addr := addr' } } } := by
  rcases Nat.lt_or_ge m.core.stack.addresses.length 16 with free | full
  · rw [execute_call_of_lt free]
    exact ⟨⟨m.core.pc.addr :: m.core.stack.addresses⟩, addr.toNat, rfl⟩
  · rw [execute_call_of_le full]
    exact ⟨m.core.stack, m.core.pc.addr, rfl⟩

theorem state_draw (m : Machine τ) (x y : Register) (n : Fin 16) : ∃ screen met,
    (m.execute (.draw x y n)).state = { m with screen, registers := m.registers.setFlag met } := ⟨_, _, rfl⟩

/-- A skip that is taken advances the counter, also where the program ends. -/
theorem state_skip_of_met {c : Condition} (met : c.Met m) : (m.execute (.skip c)).state = (m.tested c).ahead 2 := by
  by_cases room : m.core.pc.addr + 2 ≤ m.core.pc.limit
  · rw [execute, skip_of_le met room, Attempt.state_done]
  · rw [execute, skip_of_lt met (Int.not_le.1 room), Attempt.state_stopped]

theorem exists_look (m : Machine τ) : ∃ keypad keyboard, m.look = { m with keypad, keyboard } := ⟨_, _, rfl⟩

theorem exists_tested (m : Machine τ) (c : Condition) :
    ∃ keypad keyboard, m.tested c = { m with keypad, keyboard } := by
  unfold tested
  split
  · exact m.exists_look
  · exact ⟨m.keypad, m.keyboard, rfl⟩

theorem agrees_tested (m : Machine τ) (c : Condition) {part : Part} (unlooked : part = .keypad → c.readsKeys = false) :
    m.Agrees (m.tested c) part := by
  obtain ⟨keypad, keyboard, looked⟩ := m.exists_tested c
  cases part with
  | keypad =>
    have same : m.tested c = m := by simp [tested, unlooked rfl]
    exact congrArg Machine.keypad same
  | _ => rw [looked]; rfl

/-- An instruction leaves every part as it was that it may not write. -/
theorem agrees_of_not_writes (m : Machine τ) (i : Instruction) {part : Part} (free : ¬ i.Writes m part) :
    m.Agrees (m.execute i).state part := by
  cases i with
  | ret =>
    obtain ⟨stack, addr, left⟩ := m.state_ret
    rw [left]
    cases part with
    | stack | counter => exact absurd trivial free
    | _ => rfl
  | call addr =>
    obtain ⟨stack, addr', left⟩ := m.state_call addr
    rw [left]
    cases part with
    | stack | counter => exact absurd trivial free
    | _ => rfl
  | skip c =>
    have tested : m.Agrees (m.tested c) part := m.agrees_tested c fun same => by
      subst same
      exact Bool.eq_false_iff.2 free
    by_cases met : c.Met m
    · rw [state_skip_of_met met]
      cases part with
      | counter => exact absurd met free
      | _ => exact tested
    · rw [execute, skip_of_not_met met]
      exact tested
  | jump addr | jumpFromV0 addr =>
    cases part with
    | counter => exact absurd trivial free
    | _ => rfl
  | clearScreen =>
    cases part with
    | pixels | dirty => exact absurd trivial free
    | _ => rfl
  | draw x y n =>
    obtain ⟨screen, met, left⟩ := m.state_draw x y n
    rw [left]
    cases part with
    | pixels | dirty => exact absurd trivial free
    | register v => exact Registers.get_setFlag_of_ne _ _ free
    | _ => rfl
  | setByte x kk | addByte x kk | random x kk | readDelay x =>
    cases part with
    | register v => exact Registers.get_set_of_ne _ _ (Ne.symm free)
    | _ => rfl
  | alu op x y =>
    cases part with
    | register v =>
      obtain ⟨other, flagged⟩ := not_or.1 free
      exact m.registers.get_alu_of_ne _ other fun plain same => flagged ⟨plain, same⟩
    | _ => rfl
  | setIndex addr | pointGlyph x =>
    cases part with
    | index => exact absurd trivial free
    | _ => rfl
  | waitKey x =>
    obtain ⟨keypad, keyboard, looked⟩ := m.exists_look
    rw [execute, Attempt.state_done]
    cases found : m.look.awaited? with
    | none =>
      have goesOn := m.waitKey_of_none x found
      rw [looked] at goesOn
      cases part with
      | keypad | waiting => exact absurd trivial free
      | counter => exact absurd (congrArg Machine.waiting goesOn) free
      | limit => exact (m.execute_flow (.waitKey x)).limit_eq
      | _ => rw [goesOn]; rfl
    | some key =>
      rw [m.waitKey_of_some x found, looked]
      cases part with
      | keypad | waiting => exact absurd trivial free
      | register v => exact Registers.get_set_of_ne _ _ (Ne.symm free)
      | _ => rfl
  | setDelay x =>
    cases part with
    | delay => exact absurd trivial free
    | _ => rfl
  | setSound x =>
    cases part with
    | sound => exact absurd trivial free
    | _ => rfl
  | addIndex x =>
    cases part with
    | index => exact absurd trivial free
    | register v =>
      simp only [Agrees, execute, addIndex, Attempt.state_done]
      split
      next overflow => exact Registers.get_setFlag_of_ne _ _ fun same => free ⟨overflow, same⟩
      next => rfl
    | _ => rfl
  | storeDecimal x =>
    cases part with
    | cell a =>
      exact m.core.memory.cells_write _ _ fun k inside same => free ⟨k, Nat.le_of_lt_succ inside, same⟩
    | _ => rfl
  | storeRegisters x =>
    simp only [execute, storeRegisters, indexAfter, Attempt.state_done]
    cases part with
    | cell a =>
      have stored : (m.core.memory.write m.core.index.addr (m.registers.upTo x)).cells[a] = m.core.memory.cells[a] := by
        refine m.core.memory.cells_write _ _ fun k inside same => free ⟨k, ?_, same⟩
        rw [m.registers.length_upTo] at inside
        exact Nat.le_of_lt_succ inside
      split
      · exact stored
      · exact stored
    | index =>
      have kept : ¬ m.dialect.loadStoreIncrementsIndex = true := free
      rw [if_neg kept]
      rfl
    | _ => split <;> rfl
  | loadRegisters x =>
    simp only [execute, loadRegisters, indexAfter, Attempt.state_done]
    cases part with
    | register v =>
      refine m.registers.get_putAll_of_le _ ?_
      rw [m.core.memory.length_read]
      exact Nat.lt_of_not_le free
    | index =>
      have kept : ¬ m.dialect.loadStoreIncrementsIndex = true := free
      rw [if_neg kept]
      rfl
    | _ => split <;> rfl
  | unknown w => cases part <;> rfl

/-- A word that is no instruction writes nothing. -/
theorem not_writes_unknown (m : Machine τ) (w : Word) (part : Part) : ¬ (Instruction.unknown w).Writes m part := by
  cases part <;> exact id

/-- A wait that goes on takes the counter back over the instruction, unless it stands at the very start of memory. -/
theorem counter_waitKey {x : Register} (behind : 2 ≤ m.core.pc.addr) (goesOn : (m.waitKey x).waiting = true) :
    (m.waitKey x).core.pc.addr = m.core.pc.addr - 2 := by
  cases found : m.look.awaited? with
  | none =>
    rw [m.waitKey_of_none x found]
    simp only [Core.rewind, ProgramCounter.rewind, if_pos behind]
  | some key =>
    rw [m.waitKey_of_some x found] at goesOn
    cases goesOn

end Machine

namespace Emulator
variable [Time τ]

/-- Whatever word is executed once an instruction was fetched, it leaves alone what it may not write; a skip that is
    taken moves the counter on by two and a wait that goes on moves it back by two; and a word that no row of the table
    covers leaves everything. -/
theorem Reachable.footprint {s : Setup τ} {e : Emulator τ} (reached : e.Reachable s) (w : Word) :
    let m := e.fetch.state.machine
    let after := (m.execute (.decode w)).state
    (∀ part, ¬ (Instruction.decode w).Writes m part → m.Agrees after part) ∧
    (∀ c, Instruction.decode w = .skip c → c.Met m → after.core.pc.addr = m.core.pc.addr + 2) ∧
    (∀ x, Instruction.decode w = .waitKey x → after.waiting = true → after.core.pc.addr = m.core.pc.addr - 2) ∧
    ((∀ row ∈ Instruction.table, ¬ row.Covers w.toNat) → ∀ part, m.Agrees after part) := by
  intro m after
  refine ⟨?_, ?_, ?_, ?_⟩
  · intro part
    exact m.agrees_of_not_writes _
  · intro c reads met
    simp only [after, reads, Machine.state_skip_of_met met, Machine.core_ahead, Machine.core_tested]
  · intro x reads goesOn
    have behind : 2 ≤ m.core.pc.addr := by
      have standing := reached.standing.addr_nonneg
      simp only [m, machine_fetch, Machine.core_ahead]
      omega
    simp only [after, reads] at goesOn ⊢
    exact Machine.counter_waitKey behind goesOn
  · intro uncovered part
    obtain ⟨raw, reads⟩ := (Instruction.exists_unknown_iff w).2 uncovered
    refine m.agrees_of_not_writes _ ?_
    rw [reads]
    exact m.not_writes_unknown raw part

/-- Storing V0 to V3 at address 0, in place of the jump that was fetched, leaves memory from address 4 on. -/
theorem Reachable.footprint_store : ∃ e : Emulator Rat, ofProgram (.plain #[0x12, 0x00]) = .ok e ∧
    ∀ a : Fin 4096, 4 ≤ a.val →
      (e.fetch.state.machine.execute (.decode 0xF355)).state.core.memory.cells[a] =
        e.fetch.state.machine.core.memory.cells[a] := by
  obtain ⟨e, starts, started⟩ := exists_plain #[0x12, 0x00] (by decide)
  refine ⟨e, starts, fun a beyond => ?_⟩
  obtain ⟨frame, -⟩ := (Reachable.of_ofProgram starts).footprint 0xF355
  refine frame (.cell a) ?_
  have index : e.fetch.state.machine.core.index.addr = 0 := by
    rw [machine_fetch, Machine.core_ahead, started.machine]
    rfl
  rw [show Instruction.decode 0xF355 = .storeRegisters 3 by decide]
  rintro ⟨k, inside, rfl⟩
  simp only [index, Memory.cell] at beyond
  omega

end Emulator

end Chip8
