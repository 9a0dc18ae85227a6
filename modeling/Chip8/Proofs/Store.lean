import Mathlib.Data.List.Induction
import Chip8.Core

/-!
Memory over a history of its uses. Every write names a cell by an address of any size, and a cell holds the low byte of
what was last written at an address that agrees with its own modulo 4096 (`Memory.toNat_get_setAll`). A number in
decimal is three such writes from where I stands then, so what a history writes is known from the history and from where
I stood before it (`Core.memory_afterUses`). Single bytes, rows of bytes and words are read from the same cells
(`Core.wrapped_store`).
-/
namespace Chip8

namespace Memory

/-- The values written at addresses, one after the other. -/
def setAll (m : Memory) (writes : List (Int × Int)) : Memory :=
  writes.foldl (fun m (a, v) => m.set a (BitVec.ofInt 8 v)) m

/-- The value that was last written at an address which names the same cell as the given one. -/
def latest? (a : Int) (writes : List (Int × Int)) : Option Int :=
  (writes.reverse.find? fun write => write.1 % 4096 = a % 4096).map Prod.snd

theorem setAll_append (m : Memory) (writes later : List (Int × Int)) :
    m.setAll (writes ++ later) = (m.setAll writes).setAll later := List.foldl_append

theorem latest?_concat (a b v : Int) (writes : List (Int × Int)) :
    latest? a (writes ++ [(b, v)]) = if b % 4096 = a % 4096 then some v else latest? a writes := by
  by_cases same : b % 4096 = a % 4096 <;> simp [latest?, same]

/-- A cell holds the low byte of what was last written to it. -/
theorem toNat_get_setAll (m : Memory) (a : Int) (writes : List (Int × Int)) :
    (((m.setAll writes).get a).toNat : Int) =
      ((latest? a writes).map fun v : Int => v % 256).getD ((m.get a).toNat : Int) := by
  induction writes using List.reverseRecOn with
  | nil => rfl
  | append_singleton writes last ih =>
    obtain ⟨b, v⟩ := last
    have after : m.setAll (writes ++ [(b, v)]) = (m.setAll writes).set b (BitVec.ofInt 8 v) := m.setAll_append _ _
    rw [after, get_set, latest?_concat]
    by_cases same : b % 4096 = a % 4096
    · have low : (BitVec.ofInt 8 v).toNat = (v % 256).toNat := BitVec.toNat_ofInt v
      simp only [same, if_true, Option.map_some, Option.getD_some, low]
      omega
    · simp only [same, if_false]
      exact ih

/-- Once around memory a row begins again. -/
theorem read_around (m : Memory) (a : Int) (n : Nat) : m.read a (4096 + n) = m.read a 4096 ++ m.read a n := by
  have again : m.read (a + (4096 : Nat)) n = m.read a n := by
    refine List.map_congr_left fun i _ => m.get_congr ?_
    omega
  rw [read_append, again]

end Memory

namespace Core

/-- One use of memory: a byte or the digits of a number are written, or I or the counter is set, each of them through
    its own setter or both to anything at all. -/
inductive Use where
  | set (a v : Int)
  | storeDecimal (v : Int)
  | setIndex (addr : Int)
  | jump (addr : Int)
  | place (index : IndexRegister) (pc : ProgramCounter)

namespace Use

/-- The addresses and values that a use writes while I stands at `i`: of a number in decimal, the digits of its low
    byte. -/
def writes (i : Int) : Use → List (Int × Int)
  | set a v => [(a, v)]
  | storeDecimal v => [(i, v % 256 / 100), (i + 1, v % 256 / 10 % 10), (i + 2, v % 256 % 10)]
  | setIndex _ | jump _ | place _ _ => []

/-- Where I stands after a use. -/
def pointed (i : Int) : Use → Int
  | setIndex addr => addr % 65536
  | place index _ => index.addr
  | set _ _ | storeDecimal _ | jump _ => i

end Use

/-- All that a history writes, in order, if I stands at `i` before it. -/
def ledger (i : Int) : List Use → List (Int × Int)
  | [] => []
  | u :: later => u.writes i ++ ledger (u.pointed i) later

/-- What a use leaves. A value that is written is cut to its low byte. -/
def afterUse (c : Core) : Use → Core
  | .set a v => { c with memory := c.memory.set a (BitVec.ofInt 8 v) }
  | .storeDecimal v => c.storeDecimal (BitVec.ofInt 8 v)
  | .setIndex addr => c.setIndex addr
  | .jump addr => c.jump addr
  | .place index pc => { c with index, pc }

/-- What a history leaves. -/
def afterUses (c : Core) (uses : List Use) : Core := uses.foldl afterUse c

theorem decimalDigits_ofInt (v : Int) : decimalDigits (BitVec.ofInt 8 v) =
    [BitVec.ofInt 8 (v % 256 / 100), BitVec.ofInt 8 (v % 256 / 10 % 10), BitVec.ofInt 8 (v % 256 % 10)] := by
  have low : (BitVec.ofInt 8 v).toNat = (v % 256).toNat := BitVec.toNat_ofInt v
  have digit {n : Nat} {i : Int} (same : (n : Int) = i) : BitVec.ofNat 8 n = BitVec.ofInt 8 i := by
    rw [← same, BitVec.ofInt_natCast]
  rw [decimalDigits, low, digit (i := v % 256 / 100) (by omega), digit (i := v % 256 / 10 % 10) (by omega),
    digit (i := v % 256 % 10) (by omega)]

theorem memory_afterUse (c : Core) (u : Use) : (c.afterUse u).memory = c.memory.setAll (u.writes c.index.addr) := by
  cases u with
  | storeDecimal v =>
    show c.memory.write c.index.addr (decimalDigits (BitVec.ofInt 8 v)) = _
    rw [decimalDigits_ofInt]
    simp [Memory.write, Memory.setAll, Use.writes]
  | set | setIndex | jump | place => rfl

theorem index_afterUse (c : Core) (u : Use) : (c.afterUse u).index.addr = u.pointed c.index.addr := by
  cases u <;> rfl

theorem memory_afterUses (c : Core) (uses : List Use) :
    (c.afterUses uses).memory = c.memory.setAll (ledger c.index.addr uses) := by
  -- From the first use on: where it leaves I is where the later ones find it.
  induction uses generalizing c with
  | nil => rfl
  | cons u later ih =>
    show ((c.afterUse u).afterUses later).memory = _
    rw [ih, index_afterUse, memory_afterUse, ledger, Memory.setAll_append]

theorem result_fetch_eq_ok_iff (c : Core) (w : Word) :
    c.fetch.result = .ok w ↔ c.pc.addr + 2 ≤ c.pc.limit ∧ w = c.memory.word c.pc.addr := by
  by_cases room : c.pc.addr + 2 ≤ c.pc.limit
  · simp [fetch_of_le room, room, eq_comm]
  · simp [fetch_of_lt (Int.not_le.1 room), room]

/-- Memory after any history of its uses. At any address the byte is the value that was last written at an address that
    agrees with it modulo 4096, itself modulo 256, and the byte from before if there is none. A row of bytes is the
    bytes at the addresses from its first on, so two rows of which one follows the other are one row, and a row longer
    than memory begins again. A fetch, wherever the counter is put, goes through exactly if there is room for a word
    before the end, and then gives 256 times the byte at the counter and the byte behind it, the two that a row of two
    gives. -/
theorem wrapped_store (c : Core) (uses : List Use) :
    let left := c.afterUses uses
    let memory := left.memory
    (∀ a : Int, ((memory.get a).toNat : Int) =
      ((Memory.latest? a (ledger c.index.addr uses)).map fun v : Int => v % 256).getD ((c.memory.get a).toNat : Int)) ∧
    (∀ (a : Int) (n : Nat), memory.read a n = (List.range n).map fun i : Nat => memory.get (a + i)) ∧
    (∀ (a : Int) (n k : Nat), memory.read a (n + k) = memory.read a n ++ memory.read (a + n) k) ∧
    (∀ (a : Int) (n : Nat), memory.read a (4096 + n) = memory.read a 4096 ++ memory.read a n) ∧
    ∀ pc : ProgramCounter,
      let attempt := { left with pc }.fetch
      attempt.state.memory = memory ∧
      memory.read pc.addr 2 = [memory.get pc.addr, memory.get (pc.addr + 1)] ∧
      ∀ w : Word, attempt.result = .ok w ↔ pc.addr + 2 ≤ pc.limit ∧
        w.toNat = 256 * (memory.get pc.addr).toNat + (memory.get (pc.addr + 1)).toNat := by
  intro left memory
  refine ⟨fun a => ?_, fun a n => rfl, memory.read_append, memory.read_around, fun pc => ?_⟩
  · have written : memory = c.memory.setAll (ledger c.index.addr uses) := c.memory_afterUses uses
    rw [written]
    exact c.memory.toNat_get_setAll a _
  · intro attempt
    refine ⟨?_, by simp [Memory.read, List.range_succ], fun w => ?_⟩
    · simp only [attempt, state_fetch, memory]
    · simp only [attempt, memory]
      rw [result_fetch_eq_ok_iff, ← BitVec.toNat_inj, Memory.word, Word.toNat_ofBytes]

/-- Three digits around the end of memory, the second of them written over at another name of its cell. -/
theorem wrapped_store_around :
    let left := initial.afterUses [.setIndex 0x10FFF, .storeDecimal 123, .jump 0x300, .set (-4096) 300]
    left.memory.get 0x1FFF = 1 ∧ left.memory.get 0x2000 = 44 ∧ left.memory.get (-4095) = 3 ∧
      ({ left with pc := ⟨0xFFF, 0x1001⟩ } : Core).fetch.result = .ok 0x012C := by
  intro left
  obtain ⟨bytes, -, -, -, fetches⟩ :=
    initial.wrapped_store [.setIndex 0x10FFF, .storeDecimal 123, .jump 0x300, .set (-4096) 300]
  have byte {a : Int} {b : Byte} (held : ((left.memory.get a).toNat : Int) = b.toNat) : left.memory.get a = b :=
    BitVec.eq_of_toNat_eq (Int.ofNat_inj.1 held)
  have first : left.memory.get 0xFFF = 1 := byte (bytes 0xFFF)
  have second : left.memory.get 0x1000 = 44 := byte (bytes 0x1000)
  obtain ⟨-, -, goes⟩ := fetches ⟨0xFFF, 0x1001⟩
  refine ⟨byte (bytes 0x1FFF), byte (bytes 0x2000), byte (bytes (-4095)), (goes 0x012C).2 ⟨by decide, ?_⟩⟩
  show _ = 256 * (left.memory.get 0xFFF).toNat + (left.memory.get 0x1000).toNat
  rw [first, second]
  rfl

end Core

end Chip8
