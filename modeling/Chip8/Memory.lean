import Chip8.Word

/-!
The 4096 bytes of memory. Every access wraps: an address is an integer of any size, and addresses that
agree modulo 4096 name the same cell (`Memory.get_set`). The shapes of the sixteen digits lie at 0x50.
-/
namespace Chip8

/-- The cells of memory, one byte each. -/
structure Memory where
  cells : Vector Byte 4096
deriving DecidableEq

namespace Memory

/-- Where the shapes of the digits begin. -/
def fontStart : Nat := 0x50
/-- Where a program is loaded. -/
def programStart : Nat := 0x200
/-- The bytes of one digit, one row each. -/
def glyphSize : Nat := 5

/-- The shapes of the digits 0 to F, five rows of eight pixels each. -/
def font : Array Byte :=
  #[0xF0, 0x90, 0x90, 0x90, 0xF0, 0x20, 0x60, 0x20, 0x20, 0x70, 0xF0, 0x10, 0xF0, 0x80, 0xF0, 0xF0, 0x10, 0xF0, 0x10, 0xF0,
    0x90, 0x90, 0xF0, 0x10, 0x10, 0xF0, 0x80, 0xF0, 0x10, 0xF0, 0xF0, 0x80, 0xF0, 0x90, 0xF0, 0xF0, 0x10, 0x20, 0x40, 0x40,
    0xF0, 0x90, 0xF0, 0x90, 0xF0, 0xF0, 0x90, 0xF0, 0x10, 0xF0, 0xF0, 0x90, 0xF0, 0x90, 0x90, 0xE0, 0x90, 0xE0, 0x90, 0xE0,
    0xF0, 0x80, 0x80, 0x80, 0xF0, 0xE0, 0x90, 0x90, 0x90, 0xE0, 0xF0, 0x80, 0xF0, 0x80, 0xF0, 0xF0, 0x80, 0xF0, 0x80, 0x80]

/-- The cell that an address names. -/
def cell (a : Int) : Fin 4096 := ⟨(a % 4096).toNat, by omega⟩

def get (m : Memory) (a : Int) : Byte := m.cells[cell a]

def set (m : Memory) (a : Int) (b : Byte) : Memory := ⟨m.cells.set (cell a) b⟩

/-- The bytes from an address on, around the end of memory if need be. -/
def read (m : Memory) (a : Int) (n : Nat) : List Byte := (List.range n).map fun i : Nat => m.get (a + i)

/-- The bytes into the cells from an address on, in order. -/
def write (m : Memory) (a : Int) (bs : List Byte) : Memory :=
  bs.zipIdx.foldl (fun m (b, i) => m.set (a + i) b) m

/-- The word at an address, high byte first. -/
def word (m : Memory) (a : Int) : Word := Word.ofBytes (m.get a) (m.get (a + 1))

/-- The bytes from a cell on; the rest keeps what it held. -/
def overlay (m : Memory) (start : Nat) (bs : Array Byte) : Memory :=
  ⟨m.cells.mapIdx fun i b => if start ≤ i then bs[i - start]?.getD b else b⟩

/-- Memory with the shapes of the digits and nothing else. -/
def initial : Memory := overlay ⟨Vector.replicate 4096 0⟩ fontStart font

theorem cell_eq_iff (a b : Int) : cell a = cell b ↔ a % 4096 = b % 4096 := by
  simp only [cell, Fin.mk.injEq]; omega

theorem get_set (m : Memory) (a b : Int) (v : Byte) :
    (m.set a v).get b = if a % 4096 = b % 4096 then v else m.get b := by
  simp only [get, set, Fin.getElem_fin, Vector.getElem_set, ← cell_eq_iff, Fin.ext_iff]

theorem get_congr (m : Memory) {a b : Int} (same : a % 4096 = b % 4096) : m.get a = m.get b := by
  simp only [get, (cell_eq_iff a b).2 same]

theorem get_overlay (m : Memory) (start : Nat) (bs : Array Byte) (a : Int) :
    (m.overlay start bs).get a =
      if start ≤ (a % 4096).toNat then bs[(a % 4096).toNat - start]?.getD (m.get a) else m.get a := by
  simp [overlay, get, cell]

theorem length_read (m : Memory) (a : Int) (n : Nat) : (m.read a n).length = n := by simp [read]

theorem read_append (m : Memory) (a : Int) (n k : Nat) : m.read a (n + k) = m.read a n ++ m.read (a + n) k := by
  simp [read, List.range_add, Int.add_assoc, Function.comp_def]

/-- Writing one byte more. -/
theorem write_concat (m : Memory) (a : Int) (bs : List Byte) (b : Byte) :
    m.write a (bs ++ [b]) = (m.write a bs).set (a + bs.length) b := by
  simp [write, List.zipIdx_append]

end Memory

end Chip8
