import Mathlib.Data.List.Forall2
import Mathlib.Data.List.Pairwise
import Chip8.Instruction.Text
import Chip8.Proofs.RoundTrip

/-!
The instruction table, row by row, as manuals print it: each row has four hexadecimal digits, some fixed and some
standing for an operand. Reading a word agrees with it in both directions: what is written back is the word, what
the table names is read back, and a word is `unknown` exactly if no row covers it (`Instruction.decode_table`). No
word is covered by two rows (`Instruction.Row.eq_of_covers`).
-/
namespace Chip8.Instruction

/-! ### The rows -/

/-- What stands at one digit of a row: a fixed digit, or a digit of the operand of that name. -/
inductive Place where
  | digit (value : Nat)
  | x
  | y
  | n
  | kk
  | addr
deriving DecidableEq

namespace Place

instance (value : Nat) : OfNat Place value := ⟨digit value⟩

/-- Whether the digit may stand at the place. -/
def Fits : Place → Nat → Prop
  | digit value, found => found = value
  | _, _ => True

instance (place : Place) (found : Nat) : Decidable (place.Fits found) :=
  match place with
  | digit value => inferInstanceAs (Decidable (found = value))
  | x | y | n | kk | addr => .isTrue trivial

/-- The operands with their names, in the order in which instructions list them. -/
def operands : List (Place × String) := [(x, "x"), (y, "y"), (n, "n"), (kk, "kk"), (addr, "addr")]

theorem ofNat_eq (value : Nat) : (OfNat.ofNat value : Place) = digit value := rfl

end Place

/-- The four hexadecimal digits of a number below 65536, the most significant first. -/
def digits (number : Nat) : List Nat := [number / 4096, number / 256 % 16, number / 16 % 16, number % 16]

/-- An instruction's name and the digits of its words. -/
structure Row where
  name : String
  first : Place
  second : Place
  third : Place
  fourth : Place
deriving DecidableEq

namespace Row

def places (row : Row) : List Place := [row.first, row.second, row.third, row.fourth]

/-- The number has the row's fixed digits. -/
def Covers (row : Row) (number : Nat) : Prop := List.Forall₂ Place.Fits row.places (digits number)

instance (row : Row) (number : Nat) : Decidable (row.Covers number) :=
  inferInstanceAs (Decidable (List.Forall₂ Place.Fits row.places (digits number)))

/-- The number that stands at the digits of one operand. -/
def value (row : Row) (place : Place) (number : Nat) : Nat :=
  (row.places.zip (digits number)).foldl (fun sum (p, digit) => if p = place then 16 * sum + digit else sum) 0

/-- The operands that a row has, each with its name and its value. -/
def operands (row : Row) (number : Nat) : List (String × Nat) :=
  Place.operands.filterMap fun (place, key) =>
    if place ∈ row.places then some (key, row.value place number) else none

end Row

/-- The thirty-four instructions. -/
def table : List Row := [
  ⟨"ClearScreen", 0, 0, 0xE, 0⟩,
  ⟨"PopSubroutine", 0, 0, 0xE, 0xE⟩,
  ⟨"Jump", 1, .addr, .addr, .addr⟩,
  ⟨"PushSubroutine", 2, .addr, .addr, .addr⟩,
  ⟨"SkipEqualConstant", 3, .x, .kk, .kk⟩,
  ⟨"SkipNotEqualConstant", 4, .x, .kk, .kk⟩,
  ⟨"SkipEqualRegister", 5, .x, .y, 0⟩,
  ⟨"SetRegister", 6, .x, .kk, .kk⟩,
  ⟨"AddToRegister", 7, .x, .kk, .kk⟩,
  ⟨"CopyRegister", 8, .x, .y, 0⟩,
  ⟨"Or", 8, .x, .y, 1⟩,
  ⟨"And", 8, .x, .y, 2⟩,
  ⟨"XOr", 8, .x, .y, 3⟩,
  ⟨"Add", 8, .x, .y, 4⟩,
  ⟨"SubtractForward", 8, .x, .y, 5⟩,
  ⟨"RightShift", 8, .x, .y, 6⟩,
  ⟨"SubtractBackward", 8, .x, .y, 7⟩,
  ⟨"LeftShift", 8, .x, .y, 0xE⟩,
  ⟨"SkipNotEqualRegister", 9, .x, .y, 0⟩,
  ⟨"SetIndexRegister", 0xA, .addr, .addr, .addr⟩,
  ⟨"JumpWithOffset", 0xB, .addr, .addr, .addr⟩,
  ⟨"Random", 0xC, .x, .kk, .kk⟩,
  ⟨"Display", 0xD, .x, .y, .n⟩,
  ⟨"SkipIfPressed", 0xE, .x, 9, 0xE⟩,
  ⟨"SkipIfNotPressed", 0xE, .x, 0xA, 1⟩,
  ⟨"CopyDelayToRegister", 0xF, .x, 0, 7⟩,
  ⟨"GetKey", 0xF, .x, 0, 0xA⟩,
  ⟨"CopyRegisterToDelay", 0xF, .x, 1, 5⟩,
  ⟨"CopyRegisterToSound", 0xF, .x, 1, 8⟩,
  ⟨"AddToIndex", 0xF, .x, 1, 0xE⟩,
  ⟨"PointChar", 0xF, .x, 2, 9⟩,
  ⟨"ToDecimal", 0xF, .x, 3, 3⟩,
  ⟨"StoreRegisterToMemory", 0xF, .x, 5, 5⟩,
  ⟨"LoadRegisterFromMemory", 0xF, .x, 6, 5⟩]

example : table.length = 34 := rfl

/-! ### No word has two rows -/

/-- Two fixed digits that differ. -/
def Place.clash : Place → Place → Bool
  | digit value, digit other => value != other
  | _, _ => false

theorem Place.not_fits_of_clash {place other : Place} (clash : place.clash other) {found : Nat}
    (fits : place.Fits found) : ¬ other.Fits found := by
  cases place <;> cases other <;> simp only [Place.clash, Place.Fits, bne_iff_ne, reduceCtorEq] at clash fits ⊢
  exact fun same => clash (fits.symm.trans same)

theorem Place.clash_comm (place other : Place) : place.clash other = other.clash place := by
  cases place <;> cases other <;> simp only [Place.clash]
  exact bne_comm

/-- Two rows differ in a fixed digit. -/
def Row.Clash (row other : Row) : Prop :=
  row.first.clash other.first ∨ row.second.clash other.second ∨ row.third.clash other.third ∨
    row.fourth.clash other.fourth

instance : DecidableRel Row.Clash := fun _ _ => inferInstanceAs (Decidable (_ ∨ _ ∨ _ ∨ _))

instance : Std.Symm Row.Clash where
  symm row other clash := by
    simpa only [Row.Clash, Place.clash_comm] using clash

theorem pairwise_table : table.Pairwise Row.Clash := by decide

theorem Row.covers_iff (row : Row) (number : Nat) :
    row.Covers number ↔ row.first.Fits (number / 4096) ∧ row.second.Fits (number / 256 % 16) ∧
      row.third.Fits (number / 16 % 16) ∧ row.fourth.Fits (number % 16) := by
  simp only [Covers, places, digits, List.forall₂_cons, List.Forall₂.nil, and_true]

theorem Row.Clash.not_covers {row other : Row} (clash : row.Clash other) {number : Nat} (covers : row.Covers number) :
    ¬ other.Covers number := by
  rw [Row.covers_iff] at *
  obtain ⟨first, second, third, fourth⟩ := covers
  rcases clash with clash | clash | clash | clash
  · exact fun covers => Place.not_fits_of_clash clash first covers.1
  · exact fun covers => Place.not_fits_of_clash clash second covers.2.1
  · exact fun covers => Place.not_fits_of_clash clash third covers.2.2.1
  · exact fun covers => Place.not_fits_of_clash clash fourth covers.2.2.2

/-- Only one row covers a number. -/
theorem Row.eq_of_covers {number : Nat} {row other : Row} (listed : row ∈ table) (also : other ∈ table)
    (covers : row.Covers number) (coversToo : other.Covers number) : row = other := by
  by_contra differ
  have clash : row.Clash other := pairwise_table.forall listed also differ
  exact clash.not_covers covers coversToo

/-! ### The row of an instruction -/

theorem digits_withAddress {family : Nat} (small : family < 16) (addr : Address) :
    digits (withAddress family addr).toNat = [family, addr.toNat / 256, addr.toNat / 16 % 16, addr.toNat % 16] := by
  have bound := addr.isLt
  simp only [digits, withAddress, BitVec.toNat_ofNat, List.cons.injEq, and_true]
  omega
theorem digits_withByte {family : Nat} (small : family < 16) (x : Register) {low : Nat} (narrow : low < 256) :
    digits (withByte family x low).toNat = [family, x, low / 16, low % 16] := by
  have bound := x.isLt
  simp only [digits, withByte, BitVec.toNat_ofNat, List.cons.injEq, and_true]
  omega
theorem digits_nibbles {family a b c : Nat} (small : family < 16) (smallA : a < 16) (smallB : b < 16)
    (smallC : c < 16) :
    digits (nibbles family a b c).toNat = [family, a, b, c] := by
  simp only [digits, nibbles, BitVec.toNat_ofNat, List.cons.injEq, and_true]
  omega

/-- The row covers the number and reads these operands off it. -/
def Row.Reads (row : Row) (number : Nat) (operands : List (String × Nat)) : Prop :=
  row.Covers number ∧ row.operands number = operands

theorem reads_withAddress (name : String) {family : Nat} (small : family < 16) (addr : Address) :
    Row.Reads ⟨name, .digit family, .addr, .addr, .addr⟩ (withAddress family addr).toNat [("addr", addr.toNat)] := by
  simp [Row.Reads, Row.Covers, Row.operands, Row.value, Row.places, Place.operands, Place.Fits,
    digits_withAddress small]
  omega

theorem reads_withByte (name : String) {family : Nat} (small : family < 16) (x : Register) (kk : Byte) :
    Row.Reads ⟨name, .digit family, .x, .kk, .kk⟩ (withByte family x kk.toNat).toNat [("x", x), ("kk", kk.toNat)] := by
  simp [Row.Reads, Row.Covers, Row.operands, Row.value, Row.places, Place.operands, Place.Fits,
    digits_withByte small x kk.isLt]
  omega

theorem reads_withByte_fixed (name : String) {family low : Nat} (small : family < 16) (narrow : low < 256)
    (x : Register) :
    Row.Reads ⟨name, .digit family, .x, .digit (low / 16), .digit (low % 16)⟩ (withByte family x low).toNat
      [("x", x)] := by
  simp [Row.Reads, Row.Covers, Row.operands, Row.value, Row.places, Place.operands, Place.Fits,
    digits_withByte small x narrow]

theorem reads_nibbles (name : String) {family : Nat} (small : family < 16) (x y : Register) (n : Fin 16) :
    Row.Reads ⟨name, .digit family, .x, .y, .n⟩ (nibbles family x y n).toNat [("x", x), ("y", y), ("n", n)] := by
  simp [Row.Reads, Row.Covers, Row.operands, Row.value, Row.places, Place.operands, Place.Fits,
    digits_nibbles small x.isLt y.isLt n.isLt]

theorem reads_nibbles_fixed (name : String) {family low : Nat} (small : family < 16) (narrow : low < 16)
    (x y : Register) :
    Row.Reads ⟨name, .digit family, .x, .y, .digit low⟩ (nibbles family x y low).toNat [("x", x), ("y", y)] := by
  simp [Row.Reads, Row.Covers, Row.operands, Row.value, Row.places, Place.operands, Place.Fits,
    digits_nibbles small x.isLt y.isLt narrow]

/-- Every instruction but `unknown` has a row, which names it and reads its operands off its word. -/
theorem exists_row {i : Instruction} (known : ∀ w, i ≠ .unknown w) :
    ∃ row ∈ table, row.name = i.name ∧ row.Reads i.encode.toNat i.operands := by
  cases i with
  | unknown w => exact absurd rfl (known w)
  | clearScreen => exact ⟨⟨_, 0, 0, 0xE, 0⟩, by decide, rfl, by decide, rfl⟩
  | ret => exact ⟨⟨_, 0, 0, 0xE, 0xE⟩, by decide, rfl, by decide, rfl⟩
  | jump addr | call addr | setIndex addr | jumpFromV0 addr =>
    exact ⟨_, by decide, rfl, reads_withAddress _ (by decide) addr⟩
  | setByte x kk | addByte x kk | random x kk => exact ⟨_, by decide, rfl, reads_withByte _ (by decide) x kk⟩
  | alu op x y => cases op <;> exact ⟨_, by decide, rfl, reads_nibbles_fixed _ (by decide) (by decide) x y⟩
  | draw x y n => exact ⟨_, by decide, rfl, reads_nibbles _ (by decide) x y n⟩
  | skip c =>
    cases c with
    | equalsByte x kk | differsFromByte x kk => exact ⟨_, by decide, rfl, reads_withByte _ (by decide) x kk⟩
    | equal x y | different x y => exact ⟨_, by decide, rfl, reads_nibbles_fixed _ (by decide) (by decide) x y⟩
    | pressed x | notPressed x => exact ⟨_, by decide, rfl, reads_withByte_fixed _ (by decide) (by decide) x⟩
  | _ x => exact ⟨_, by decide, rfl, reads_withByte_fixed _ (by decide) (by decide) x⟩

/-! ### Words without a row -/

theorem aluOp?_eq_none {n : Nat} (unnamed : aluOp? n = none) : 8 ≤ n ∧ n ≠ 0xE := by
  unfold aluOp? at unnamed
  split at unnamed
  case h_10 => grind
  all_goals cases unnamed
theorem keyTest?_eq_none {x : Register} {low : Nat} (unnamed : keyTest? x low = none) : low ≠ 0x9E ∧ low ≠ 0xA1 := by
  unfold keyTest? at unnamed
  split at unnamed
  case h_3 => grind
  all_goals cases unnamed
theorem transfer?_eq_none {x : Register} {low : Nat} (unnamed : transfer? x low = none) :
    low ≠ 0x07 ∧ low ≠ 0x0A ∧ low ≠ 0x15 ∧ low ≠ 0x18 ∧ low ≠ 0x1E ∧ low ≠ 0x29 ∧ low ≠ 0x33 ∧ low ≠ 0x55 ∧
      low ≠ 0x65 := by
  unfold transfer? at unnamed
  split at unnamed
  case h_10 => grind
  all_goals cases unnamed

theorem not_covers_of_known?_eq_none {w : Word} (outside : known? w = none) : ∀ row ∈ table, ¬ row.Covers w.toNat := by
  intro row listed covers
  -- Spelled out, the rows are conditions on the digits; each family of words contradicts its own.
  have covered : ∃ row ∈ table, row.Covers w.toNat := ⟨row, listed, covers⟩
  simp only [table, List.exists_mem_cons_iff, Row.covers_iff, Place.ofNat_eq, Place.Fits, and_true, true_and,
    List.not_mem_nil, false_and, exists_false, or_false] at covered
  unfold known? at outside
  rw [w.field_one_one, w.field_four_one, w.field_three_two] at outside
  split at outside
  case h_1 family =>
    split at outside
    next => cases outside
    next notClear =>
      split at outside
      next => cases outside
      next notReturn => bv_omega
  case h_6 family | h_10 family =>
    split at outside
    next => cases outside
    next low => omega
  case h_9 family =>
    have unnamed := aluOp?_eq_none (Option.map_eq_none_iff.1 outside)
    omega
  case h_15 family =>
    have unnamed := keyTest?_eq_none outside
    omega
  case h_16 family =>
    have unnamed := transfer?_eq_none outside
    omega
  case h_17 => grind
  all_goals cases outside

theorem known?_ne_unknown {w : Word} {i : Instruction} (found : known? w = some i) (raw : Word) : i ≠ .unknown raw := by
  rintro rfl
  unfold known? at found
  split at found
  case h_1 =>
    split at found
    next => cases found
    next => split at found <;> cases found
  case h_6 | h_10 => split at found <;> cases found
  case h_9 =>
    obtain ⟨op, -, reads⟩ := Option.map_eq_some_iff.1 found
    cases reads
  case h_15 => unfold keyTest? at found; split at found <;> cases found
  case h_16 => unfold transfer? at found; split at found <;> cases found
  all_goals cases found

theorem eq_of_decode_eq_unknown {w raw : Word} (reads : decode w = .unknown raw) : raw = w := by
  rw [← encode_decode w, reads, encode]

/-- A word is unknown exactly if it has no row. -/
theorem exists_unknown_iff (w : Word) : (∃ raw, decode w = .unknown raw) ↔ ∀ row ∈ table, ¬ row.Covers w.toNat := by
  constructor
  · rintro ⟨raw, reads⟩
    apply not_covers_of_known?_eq_none
    cases found : known? w with
    | none => rfl
    | some i =>
      have same : decode w = i := by rw [decode, found, Option.getD_some]
      exact absurd (same.symm.trans reads) (known?_ne_unknown found raw)
  · intro uncovered
    by_contra known
    obtain ⟨row, listed, -, covers, -⟩ := exists_row fun raw reads => known ⟨raw, reads⟩
    rw [encode_decode] at covers
    exact uncovered row listed covers

/-! ### The decoder and the table -/

/-- A word reads as its row says. -/
theorem decode_of_covers {row : Row} (listed : row ∈ table) {w : Word} (covers : row.Covers w.toNat) :
    (decode w).name = row.name ∧ (decode w).operands = row.operands w.toNat := by
  have known (raw : Word) : decode w ≠ .unknown raw :=
    fun reads => (exists_unknown_iff w).1 ⟨raw, reads⟩ row listed covers
  obtain ⟨other, also, named, coversToo, operands⟩ := exists_row known
  rw [encode_decode] at coversToo operands
  obtain rfl := Row.eq_of_covers listed also covers coversToo
  exact ⟨named.symm, operands.symm⟩

/-- What is in the table or has no row reads back. -/
theorem decode_encode_of_uncovered {i : Instruction}
    (uncovered : ∀ raw, i = .unknown raw → ∀ row ∈ table, ¬ row.Covers raw.toNat) : decode i.encode = i := by
  by_cases known : ∀ raw, i ≠ .unknown raw
  · exact decode_encode known
  · obtain ⟨raw, unknown⟩ := not_forall_not.1 known
    obtain ⟨read, reads⟩ := (exists_unknown_iff raw).2 (uncovered raw unknown)
    rw [unknown, encode, reads, eq_of_decode_eq_unknown reads]

/-- The largest value of the operand of that name. -/
def largest : String → Nat
  | "x" | "y" | "n" => 0xF
  | "kk" => 0xFF
  | "addr" => 0xFFF
  | _ => 0xFFFF

theorem operand_le_largest (i : Instruction) : ∀ operand ∈ i.operands, operand.2 ≤ largest operand.1 := by
  cases i with
  | clearScreen | ret => simp [operands]
  | skip c => cases c <;> simp [operands, conditionOperands, largest] <;> omega
  | _ => simp [operands, largest]; omega

/-- Reading loses nothing and accepts exactly the table. An unknown word is written as it is. A number of any size is
    read by its low sixteen bits, and writing gives these back. An instruction reads back, unless it is an unknown
    word that has a row. Every operand read is in its range. A number reads as unknown exactly if it has no row, and
    else as its row says. -/
theorem decode_table :
    (∀ raw, (unknown raw).encode = raw) ∧
    (∀ code : Int, ((decode (.ofInt 16 code)).encode.toNat : Int) = code % 65536) ∧
    (∀ i : Instruction, (∀ raw, i = .unknown raw → ∀ row ∈ table, ¬ row.Covers raw.toNat) → decode i.encode = i) ∧
    (∀ code : Int, ∀ operand ∈ (decode (.ofInt 16 code)).operands, operand.2 ≤ largest operand.1) ∧
    (∀ code : Int, (∃ raw, decode (.ofInt 16 code) = .unknown raw) ↔
      ∀ row ∈ table, ¬ row.Covers (code % 65536).toNat) ∧
    (∀ code : Int, ∀ row ∈ table, row.Covers (code % 65536).toNat →
      (decode (.ofInt 16 code)).name = row.name ∧
      (decode (.ofInt 16 code)).operands = row.operands (code % 65536).toNat) := by
  have value (code : Int) : (BitVec.ofInt 16 code).toNat = (code % 65536).toNat := BitVec.toNat_ofInt ..
  refine ⟨fun raw => rfl, fun code => ?lossless, fun i => decode_encode_of_uncovered, fun code => operand_le_largest _,
    fun code => ?rejects, fun code row listed covers => ?reads⟩
  case lossless => rw [encode_decode, value, Int.toNat_of_nonneg (Int.emod_nonneg code (by decide))]
  case rejects => rw [exists_unknown_iff, value]
  case reads =>
    rw [← value] at covers ⊢
    exact decode_of_covers listed covers

/-- The number -11995 has the low bits `D125`. -/
theorem decode_table_draw :
    (decode (.ofInt 16 (-11995))).name = "Display" ∧
      (decode (.ofInt 16 (-11995))).operands = [("x", 1), ("y", 2), ("n", 5)] := by
  have reads := decode_table.2.2.2.2.2 (-11995) ⟨"Display", 0xD, .x, .y, .n⟩ (by decide) (by decide)
  exact ⟨reads.1, reads.2.trans (by decide)⟩

end Chip8.Instruction
