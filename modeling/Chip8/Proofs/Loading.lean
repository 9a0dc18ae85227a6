import Chip8.Core

/-!
Loading programs. A load puts the bytes of a program in the place of as many bytes from 0x200 on
(`Memory.bytes_overlay`), so memory keeps its size and every other byte; or it fails and nothing has changed. After any
number of loads each byte is the one that the last of the programs brought which fits and is long enough to reach it
(`Core.loads_exact`).
-/
namespace Chip8

namespace Memory

/-- The bytes of memory in order. -/
def bytes (m : Memory) : List Byte := m.cells.toList

/-- A row of bytes put into a list from a place on, for as many as it has itself. -/
def splice (bytes : List Byte) (start : Nat) (row : List Byte) : List Byte :=
  bytes.take start ++ row ++ bytes.drop (start + row.length)

section
variable {bytes : List Byte} {start : Nat} {row : List Byte}

theorem length_splice (fits : start + row.length ≤ bytes.length) : (splice bytes start row).length = bytes.length := by
  simp only [splice, List.length_append, List.length_take, List.length_drop]
  omega

theorem getElem?_splice (fits : start + row.length ≤ bytes.length) (i : Nat) : (splice bytes start row)[i]? =
    if start ≤ i ∧ i < start + row.length then row[i - start]? else bytes[i]? := by
  have before : (bytes.take start).length = start := List.length_take_of_le (Nat.le_of_add_right_le fits)
  rw [splice, List.append_assoc]
  rcases Nat.lt_or_ge i start with low | high
  · rw [List.getElem?_append_left (by omega), List.getElem?_take_of_lt low, if_neg (by omega)]
  · rw [List.getElem?_append_right (by omega), before]
    rcases Nat.lt_or_ge i (start + row.length) with inside | behind
    · rw [List.getElem?_append_left (by omega), if_pos ⟨high, inside⟩]
    · have place : start + row.length + (i - start - row.length) = i := by omega
      rw [List.getElem?_append_right (by omega), List.getElem?_drop, place, if_neg (by omega)]

end

/-- Laying bytes over cells is putting them in the place of as many. -/
theorem bytes_overlay (m : Memory) {start : Nat} {row : Array Byte} (fits : start + row.size ≤ 4096) :
    (m.overlay start row).bytes = splice m.bytes start row.toList := by
  have size : m.bytes.length = 4096 := Vector.length_toList
  apply List.ext_getElem?
  intro i
  rw [getElem?_splice (by rw [size]; exact fits)]
  simp only [bytes, overlay, Vector.getElem?_toList, Vector.getElem?_mapIdx, Array.length_toList, Array.getElem?_toList]
  by_cases inside : start ≤ i ∧ i < start + row.size
  · have place : i < 4096 := by omega
    have byte : i - start < row.size := by omega
    rw [if_pos inside, Vector.getElem?_eq_getElem place, Array.getElem?_eq_getElem byte, Option.map_some,
      if_pos inside.1, Option.getD_some]
  · have kept (b : Byte) : (if start ≤ i then row[i - start]?.getD b else b) = b := by
      split
      next behind => rw [Array.getElem?_eq_none (by omega), Option.getD_none]
      next => rfl
    simp only [if_neg inside, kept, Option.map_id']

theorem get_overlay_program (m : Memory) {program : Array Byte} (fits : program.size ≤ 3584) :
    (∀ i (inside : i < program.size), (m.overlay 0x200 program).get (0x200 + i) = program[i]) ∧
    ∀ a : Int, a % 4096 < 0x200 ∨ 0x200 + program.size ≤ a % 4096 → (m.overlay 0x200 program).get a = m.get a := by
  constructor
  · intro i inside
    have place : ((0x200 + i : Int) % 4096).toNat = 0x200 + i := by omega
    rw [get_overlay, place, if_pos (Nat.le_add_right _ _), Nat.add_sub_cancel_left,
      Array.getElem?_eq_getElem inside, Option.getD_some]
  · intro a outside
    rw [get_overlay]
    split
    next behind => rw [Array.getElem?_eq_none (by omega), Option.getD_none]
    next => rfl

end Memory

namespace Core

/-- What is there after a load, also one that failed. -/
def afterLoad (c : Core) (program : Array Byte) : Core :=
  match c.load program with
  | .ok after => after
  | .error _ => c

/-- What is there after loads, one after the other. -/
def afterLoads (c : Core) (programs : List (Array Byte)) : Core := programs.foldl afterLoad c

/-- The byte that a place gets from the last of the programs that fits and is long enough to reach it. -/
def brought? (i : Nat) : List (Array Byte) → Option Byte
  | [] => none
  | program :: later => (brought? i later).or (if program.size ≤ 3584 then program[i]? else none)

section
variable {program : Array Byte}

theorem load_of_lt (c : Core) (beyond : 3584 < program.size) :
    c.load program = .error (.tooLarge program.size 3584) := by
  rw [load, if_pos (show room < program.size from beyond)]
  rfl

theorem load_of_le (c : Core) (fits : program.size ≤ 3584) : c.load program = .ok { c with
    memory := c.memory.overlay 0x200 program
    pc := ⟨0x200, 0x200 + program.size⟩ } := by
  rw [load, if_neg (show ¬ room < program.size from Nat.not_lt.2 fits)]
  rfl

theorem afterLoad_of_lt (c : Core) (beyond : 3584 < program.size) : c.afterLoad program = c := by
  rw [afterLoad, c.load_of_lt beyond]

theorem afterLoad_of_le (c : Core) (fits : program.size ≤ 3584) : c.afterLoad program = { c with
    memory := c.memory.overlay 0x200 program
    pc := ⟨0x200, 0x200 + program.size⟩ } := by
  rw [afterLoad, c.load_of_le fits]

end

theorem get_afterLoad (c : Core) (program : Array Byte) {i : Nat} (inside : i < 3584) :
    (c.afterLoad program).memory.get (0x200 + i) =
      (if program.size ≤ 3584 then program[i]? else none).getD (c.memory.get (0x200 + i)) := by
  have place : ((0x200 + i : Int) % 4096).toNat = 0x200 + i := by omega
  rcases Nat.lt_or_ge 3584 program.size with beyond | fits
  · rw [c.afterLoad_of_lt beyond, if_neg (Nat.not_le.2 beyond), Option.getD_none]
  · rw [c.afterLoad_of_le fits, if_pos fits]
    simp only [Memory.get_overlay, place, Nat.le_add_right, if_true, Nat.add_sub_cancel_left]

theorem get_afterLoads (c : Core) (programs : List (Array Byte)) {i : Nat} (inside : i < 3584) :
    (c.afterLoads programs).memory.get (0x200 + i) = (brought? i programs).getD (c.memory.get (0x200 + i)) := by
  -- From the first load on: what it leaves is what the later ones find.
  induction programs generalizing c with
  | nil => rfl
  | cons program later ih =>
    have first : c.afterLoads (program :: later) = (c.afterLoad program).afterLoads later := rfl
    rw [first, ih, c.get_afterLoad program inside, brought?]
    cases brought? i later with
    | none => rw [Option.none_or, Option.getD_none]
    | some b => rfl

/-- The second core differs from the first at most in the bytes from 0x200 on and in the counter. -/
structure Reloaded (c d : Core) : Prop where
  low : ∀ a : Int, a % 4096 < 0x200 → d.memory.get a = c.memory.get a
  index : d.index = c.index
  stack : d.stack = c.stack

theorem reloaded_afterLoad (c : Core) (program : Array Byte) : c.Reloaded (c.afterLoad program) := by
  rcases Nat.lt_or_ge 3584 program.size with beyond | fits
  · rw [c.afterLoad_of_lt beyond]
    exact ⟨fun _ _ => rfl, rfl, rfl⟩
  · rw [c.afterLoad_of_le fits]
    exact ⟨fun a low => (c.memory.get_overlay_program fits).2 a (.inl low), rfl, rfl⟩

theorem reloaded_afterLoads (c : Core) (programs : List (Array Byte)) : c.Reloaded (c.afterLoads programs) := by
  induction programs generalizing c with
  | nil => exact ⟨fun _ _ => rfl, rfl, rfl⟩
  | cons program later ih =>
    have first := c.reloaded_afterLoad program
    have rest := ih (c.afterLoad program)
    exact ⟨fun a low => (rest.low a low).trans (first.low a low), rest.index.trans first.index,
      rest.stack.trans first.stack⟩

/-- Loading is all or nothing. A program of more than 3584 bytes is refused, and nothing has changed; every other one is
    put in the place of as many bytes from 0x200 on, which leaves memory its size: its bytes are where they belong,
    every other byte is what it was, the counter stands at 0x200 with the end behind the last byte, and I and the calls
    are what they were. So after any number of loads every byte from 0x200 on is the one that the last program brought
    which fits and is long enough, and the one from before if there is none; the bytes below, I and the calls are
    untouched. -/
theorem loads_exact (c : Core) :
    (∀ program : Array Byte,
      ((∃ e, c.load program = .error e) ↔ 3584 < program.size) ∧
      (3584 < program.size → c.load program = .error (.tooLarge program.size 3584) ∧ c.afterLoad program = c) ∧
      (program.size ≤ 3584 → ∃ memory,
        let after := { c with memory, pc := ⟨0x200, 0x200 + program.size⟩ }
        c.load program = .ok after ∧ c.afterLoad program = after ∧ after.pc.limit ≤ 4096 ∧
        memory.bytes = Memory.splice c.memory.bytes 0x200 program.toList ∧
        (Memory.splice c.memory.bytes 0x200 program.toList).length = 4096 ∧
        (∀ i (inside : i < program.size), memory.get (0x200 + i) = program[i]) ∧
        ∀ a : Int, a % 4096 < 0x200 ∨ 0x200 + program.size ≤ a % 4096 → memory.get a = c.memory.get a)) ∧
    ∀ programs, c.Reloaded (c.afterLoads programs) ∧
      ∀ i < 3584, (c.afterLoads programs).memory.get (0x200 + (i : Nat)) =
        (brought? i programs).getD (c.memory.get (0x200 + (i : Nat))) := by
  refine ⟨fun program => ⟨?_, ?_, ?_⟩, fun programs => ?_⟩
  · constructor
    · rintro ⟨e, failed⟩
      refine Nat.lt_of_not_le fun fits => ?_
      rw [c.load_of_le fits] at failed
      cases failed
    · intro beyond
      exact ⟨_, c.load_of_lt beyond⟩
  · intro beyond
    exact ⟨c.load_of_lt beyond, c.afterLoad_of_lt beyond⟩
  · intro fits
    have room : 0x200 + program.size ≤ 4096 := by omega
    have size : c.memory.bytes.length = 4096 := Vector.length_toList
    obtain ⟨inside, outside⟩ := c.memory.get_overlay_program fits
    refine ⟨_, c.load_of_le fits, c.afterLoad_of_le fits, ?_, c.memory.bytes_overlay room, ?_, inside, outside⟩
    · show (0x200 + program.size : Int) ≤ 4096
      omega
    · rw [Memory.length_splice (by rw [size]; exact room), size]
  · exact ⟨c.reloaded_afterLoads programs, fun i => c.get_afterLoads programs⟩

/-- A program of three bytes, one that is refused, and one of a single byte. -/
theorem loads_exact_shorter :
    let left := initial.afterLoads [#[1, 2, 3], Array.replicate 3585 7, #[9]]
    (∃ memory, initial.load #[1, 2, 3] = .ok { initial with memory, pc := ⟨0x200, 0x203⟩ } ∧ memory.get 0x202 = 3) ∧
    initial.load (Array.replicate 3585 7) = .error (.tooLarge 3585 3584) ∧
    left.memory.get 0x200 = 9 ∧ left.memory.get 0x201 = 2 := by
  intro left
  obtain ⟨single, many⟩ := initial.loads_exact
  obtain ⟨_, _, loads⟩ := single #[1, 2, 3]
  obtain ⟨memory, loaded, _, _, _, _, bytes, _⟩ := loads (by decide)
  obtain ⟨_, refuses, _⟩ := single (Array.replicate 3585 7)
  obtain ⟨_, byte⟩ := many [#[1, 2, 3], Array.replicate 3585 7, #[9]]
  have size : (Array.replicate 3585 (7 : Byte)).size = 3585 := Array.size_replicate
  have refused := (refuses (by rw [size]; decide)).1
  rw [size] at refused
  refine ⟨⟨memory, loaded, bytes 2 (by decide)⟩, refused, ?_, ?_⟩
  · exact (byte 0 (by decide)).trans (by simp [brought?])
  · exact (byte 1 (by decide)).trans (by simp [brought?])

end Core

end Chip8
