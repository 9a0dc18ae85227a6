import Mathlib.Data.List.Induction
import Chip8.Proofs.Footprint

/-!
Registers that go to memory and come back. The cells of a transfer lie in a row, around the end of memory if need
be, and as there are at most sixteen of them no two are one (`Memory.get_write`). So a register that is stored is
found in its own cell (`Machine.get_storeRegisters`), what is stored is loaded again, and what was loaded is stored
without a trace (`Machine.restore_registers`).
-/
namespace Chip8
variable {τ : Type}

namespace Memory

theorem ext_get {m n : Memory} (same : ∀ a, m.get a = n.get a) : m = n := by
  obtain ⟨v⟩ := m
  obtain ⟨w⟩ := n
  rw [mk.injEq]
  apply Vector.ext
  intro i inside
  have small : ((i : Int) % 4096).toNat = i := by omega
  have read := same i
  simp only [get, cell, small] at read
  exact read

theorem getElem?_read (m : Memory) (a : Int) (n i : Nat) :
    (m.read a n)[i]? = if i < n then some (m.get (a + i)) else none := by
  rw [read, List.getElem?_map]
  by_cases inside : i < n
  · rw [if_pos inside, List.getElem?_range inside]
    rfl
  · rw [if_neg inside, List.getElem?_eq_none_iff.2 (by rw [List.length_range]; omega)]
    rfl

/-- Bytes that do not go around all of memory each keep a cell of their own: a cell so far behind the first holds the
    byte so far behind the first, if there is one. -/
theorem get_write (m : Memory) (a b : Int) {bs : List Byte} (short : bs.length ≤ 4096) :
    (m.write a bs).get b = bs[((b - a) % 4096).toNat]?.getD (m.get b) := by
  induction bs using List.reverseRecOn with
  | nil => rfl
  | append_singleton bs last ih =>
    rw [List.length_append, List.length_singleton] at short
    rw [write_concat, get_set, ih (Nat.le_of_succ_le short)]
    -- As the row is shorter than memory, the last byte shares its cell with none of those before it.
    by_cases here : (a + bs.length) % 4096 = b % 4096
    · have place : ((b - a) % 4096).toNat = bs.length := by omega
      rw [if_pos here, place, List.getElem?_concat_length, Option.getD_some]
    · have other : ((b - a) % 4096).toNat ≠ bs.length := by omega
      rw [if_neg here]
      rcases Nat.lt_or_gt_of_ne other with inside | beyond
      · rw [List.getElem?_append_left inside]
      · rw [List.getElem?_eq_none_iff.2 (Nat.le_of_lt beyond), List.getElem?_eq_none_iff.2 (by
          rw [List.length_append, List.length_singleton]
          exact beyond)]

end Memory

theorem Registers.getElem?_upTo (V : Registers) (x v : Register) :
    (V.upTo x)[v.val]? = if v ≤ x then some (V.get v) else none := by
  rw [upTo]
  by_cases among : v ≤ x
  · have inside : v.val < x.val + 1 := Nat.lt_succ_of_le among
    rw [if_pos among, List.getElem?_take_of_lt inside]
    simp [get]
  · have beyond : (V.upTo x).length ≤ v.val := by
      rw [V.length_upTo]
      exact Nat.lt_of_not_le among
    rw [if_neg among]
    exact List.getElem?_eq_none_iff.2 beyond

namespace Machine

/-- The machine with I set to a given value. -/
def pointing (m : Machine τ) (index : IndexRegister) : Machine τ := { m with core := { m.core with index } }

/-- The machine with other registers. -/
def withRegisters (m : Machine τ) (registers : Registers) : Machine τ := { m with registers }

theorem index_indexAfter (m : Machine τ) (x : Register) (core : Core) :
    (m.indexAfter x core).index =
      if m.dialect.loadStoreIncrementsIndex then .ofInt (m.core.index.addr + x + 1) else core.index := by
  unfold indexAfter
  split
  · rfl
  · rfl

theorem memory_indexAfter (m : Machine τ) (x : Register) (core : Core) :
    (m.indexAfter x core).memory = core.memory := by
  unfold indexAfter
  split
  · rfl
  · rfl

theorem get_storeRegisters (m : Machine τ) (x : Register) (a : Int) :
    (m.storeRegisters x).core.memory.get a =
      (m.registers.upTo x)[((a - m.core.index.addr) % 4096).toNat]?.getD (m.core.memory.get a) := by
  rw [storeRegisters, memory_indexAfter]
  refine m.core.memory.get_write _ _ ?_
  rw [m.registers.length_upTo]
  omega

theorem get_loadRegisters (m : Machine τ) (x v : Register) :
    (m.loadRegisters x).registers.get v =
      if v ≤ x then m.core.memory.get (m.core.index.addr + v) else m.registers.get v := by
  rw [loadRegisters, Registers.get_putAll, Memory.getElem?_read]
  by_cases among : v ≤ x
  · rw [if_pos among, if_pos (Nat.lt_succ_of_le among), Option.getD_some]
  · have beyond : ¬ v.val < x.val + 1 := fun inside => among (Nat.le_of_lt_succ inside)
    rw [if_neg among, if_neg beyond, Option.getD_none]

/-- A cell in the row of a store holds the register whose place it is, and every other cell what it held. -/
theorem storeRegisters_cells (m : Machine τ) (x : Register) (a : Int) :
    (∀ v ≤ x, a % 4096 = (m.core.index.addr + v) % 4096 →
      (m.storeRegisters x).core.memory.get a = m.registers.get v) ∧
    ((∀ v ≤ x, a % 4096 ≠ (m.core.index.addr + v) % 4096) →
      (m.storeRegisters x).core.memory.get a = m.core.memory.get a) := by
  rw [get_storeRegisters]
  constructor
  · intro v among here
    have small := v.isLt
    have place : ((a - m.core.index.addr) % 4096).toNat = v.val := by omega
    rw [place, m.registers.getElem?_upTo, if_pos among, Option.getD_some]
  · intro outside
    rw [List.getElem?_eq_none_iff.2, Option.getD_none]
    rw [m.registers.length_upTo]
    by_contra inside
    have among : ((a - m.core.index.addr) % 4096).toNat ≤ x.val := by omega
    have small := x.isLt
    refine outside ⟨((a - m.core.index.addr) % 4096).toNat, by omega⟩ among ?_
    show a % 4096 = (m.core.index.addr + (((a - m.core.index.addr) % 4096).toNat : Nat)) % 4096
    omega

/-- Registers that were loaded are stored back to where they came from. -/
theorem memory_store_load (m : Machine τ) (x : Register) :
    (((m.loadRegisters x).pointing m.core.index).storeRegisters x).core.memory = m.core.memory := by
  have kept : (m.loadRegisters x).core.memory = m.core.memory := m.memory_indexAfter x m.core
  apply Memory.ext_get
  intro a
  obtain ⟨inside, outside⟩ := ((m.loadRegisters x).pointing m.core.index).storeRegisters_cells x a
  by_cases row : ∃ v ≤ x, a % 4096 = (m.core.index.addr + (v : Nat)) % 4096
  · obtain ⟨v, among, here⟩ := row
    have loaded := m.get_loadRegisters x v
    rw [if_pos among] at loaded
    rw [inside v among here]
    exact loaded.trans (m.core.memory.get_congr here.symm)
  · rw [outside fun v among here => row ⟨v, among, here⟩]
    exact congrArg (fun memory => memory.get a) kept

/-- Registers that were stored are loaded again, whatever the registers hold meanwhile. -/
theorem get_load_store (m : Machine τ) (x v : Register) (V : Registers) :
    ((((m.storeRegisters x).pointing m.core.index).withRegisters V).loadRegisters x).registers.get v =
      if v ≤ x then m.registers.get v else V.get v := by
  rw [get_loadRegisters]
  by_cases among : v ≤ x
  · rw [if_pos among, if_pos among]
    exact (m.storeRegisters_cells x (m.core.index.addr + v)).1 v among rfl
  · rw [if_neg among, if_neg among]
    rfl

/-- V0 to Vx stored at I, wherever I stands, and loaded from there. Each takes the cell so far behind I as its number
    says, around the end of memory if need be; no other cell changes. If then the registers are changed in any way and
    I is set back, a load gives V0 to Vx their old values and leaves the others as they were changed; and a store of
    what was loaded, with I set back, leaves all of memory as it was. Both leave I behind the last register where the
    dialect has it so, and else where it stood. -/
theorem restore_registers (m : Machine τ) (x : Register) :
    let stored := m.execute (.storeRegisters x)
    let loaded := m.execute (.loadRegisters x)
    let storedBack := (loaded.state.pointing m.core.index).execute (.storeRegisters x)
    let behind := if m.dialect.loadStoreIncrementsIndex then (m.core.index.addr + x + 1) % 65536 else m.core.index.addr
    (stored.result = .ok () ∧ stored.state.core.index.addr = behind ∧
      ∀ a, (∀ v ≤ x, a % 4096 = (m.core.index.addr + v) % 4096 →
          stored.state.core.memory.get a = m.registers.get v) ∧
        ((∀ v ≤ x, a % 4096 ≠ (m.core.index.addr + v) % 4096) →
          stored.state.core.memory.get a = m.core.memory.get a)) ∧
    (loaded.result = .ok () ∧ loaded.state.core.index.addr = behind) ∧
    (∀ V : Registers,
      let loadedBack := ((stored.state.pointing m.core.index).withRegisters V).execute (.loadRegisters x)
      loadedBack.result = .ok () ∧
        ∀ v, loadedBack.state.registers.get v = if v ≤ x then m.registers.get v else V.get v) ∧
    storedBack.result = .ok () ∧ storedBack.state.core.memory = m.core.memory := by
  intro stored loaded storedBack behind
  have addr (core : Core) (same : core.index = m.core.index) : (m.indexAfter x core).index.addr = behind := by
    rw [index_indexAfter]
    simp only [behind]
    split
    · rfl
    · rw [same]
  refine ⟨⟨rfl, addr _ rfl, m.storeRegisters_cells x⟩, ⟨rfl, addr _ rfl⟩, ?_, rfl, m.memory_store_load x⟩
  intro V loadedBack
  exact ⟨rfl, fun v => m.get_load_store x v V⟩

end Machine

end Chip8
