import Chip8.Instruction.Decode
import Chip8.Instruction.Encode

/-!
Reading and writing instructions are inverse to each other. Every word is the encoding of what it reads as
(`Instruction.encode_decode`), and every instruction of the table reads back (`Instruction.decode_encode`); so a
word reads as an instruction of the table exactly if it is that instruction's encoding
(`Instruction.decode_eq_iff`), and no two of them share one (`Instruction.encode_inj`).
-/
namespace Chip8.Instruction

/-! ### From the word -/

theorem withAddress_nnn (w : Word) : withAddress (w.field 1 1) w.nnn = w := by
  have bound := w.isLt
  apply BitVec.eq_of_toNat_eq
  simp only [withAddress, BitVec.toNat_ofNat, w.field_one_one, w.toNat_nnn]
  omega
theorem withByte_kk (w : Word) : withByte (w.field 1 1) w.x (w.field 3 2) = w := by
  have bound := w.isLt
  apply BitVec.eq_of_toNat_eq
  simp only [withByte, BitVec.toNat_ofNat, w.field_one_one, w.val_x, w.field_three_two]
  omega
theorem nibbles_fields (w : Word) : nibbles (w.field 1 1) w.x w.y (w.field 4 1) = w := by
  have bound := w.isLt
  apply BitVec.eq_of_toNat_eq
  simp only [nibbles, BitVec.toNat_ofNat, w.field_one_one, w.val_x, w.val_y, w.field_four_one]
  omega

theorem aluNibble_of_aluOp? {n : Nat} {op : AluOp} (named : aluOp? n = some op) : aluNibble op = n := by
  unfold aluOp? at named
  split at named <;> cases named <;> rfl
theorem encode_of_keyTest? {x : Register} {low : Nat} {i : Instruction} (named : keyTest? x low = some i) :
    i.encode = withByte 0xE x low := by
  unfold keyTest? at named
  split at named <;> cases named <;> rfl
theorem encode_of_transfer? {x : Register} {low : Nat} {i : Instruction} (named : transfer? x low = some i) :
    i.encode = withByte 0xF x low := by
  unfold transfer? at named
  split at named <;> cases named <;> rfl

/-- An entry of the table covers only its own words. -/
theorem encode_of_known? {w : Word} {i : Instruction} (found : known? w = some i) : i.encode = w := by
  have address := withAddress_nnn w
  have byte := withByte_kk w
  have nibble := nibbles_fields w
  unfold known? at found
  split at found
  case h_1 =>
    split at found
    next clear => cases found; exact clear.symm
    next =>
      split at found
      next back => cases found; exact back.symm
      next => cases found
  case h_2 family | h_3 family | h_11 family | h_12 family => cases found; rw [family] at address; exact address
  case h_4 family | h_5 family | h_7 family | h_8 family | h_13 family =>
    cases found
    rw [family, w.field_three_two, ← w.toNat_kk] at byte
    exact byte
  case h_6 family | h_10 family =>
    split at found
    next zero => cases found; rw [family, zero] at nibble; exact nibble
    next => cases found
  case h_9 family =>
    obtain ⟨op, named, rfl⟩ := Option.map_eq_some_iff.1 found
    rw [family, ← aluNibble_of_aluOp? named] at nibble
    exact nibble
  case h_14 family => cases found; rw [family, w.field_four_one, ← w.val_n] at nibble; exact nibble
  case h_15 family => rw [encode_of_keyTest? found, ← family]; exact byte
  case h_16 family => rw [encode_of_transfer? found, ← family]; exact byte
  case h_17 => cases found

/-- Writing what was read gives back the word. -/
theorem encode_decode (w : Word) : (decode w).encode = w := by
  unfold decode
  cases found : known? w with
  | none => rfl
  | some i => exact encode_of_known? found

/-! ### From the instruction -/

theorem fields_withAddress {family : Nat} (small : family < 16) (addr : Address) :
    (withAddress family addr).field 1 1 = family ∧ (withAddress family addr).nnn = addr := by
  have bound := addr.isLt
  have value : (withAddress family addr).toNat = family * 4096 + addr.toNat := by
    simp only [withAddress, BitVec.toNat_ofNat]; omega
  refine ⟨?_, BitVec.eq_of_toNat_eq ?_⟩
  · rw [Word.field_one_one]; omega
  · rw [Word.toNat_nnn]; omega

theorem fields_withByte {family : Nat} (small : family < 16) (x : Register) {low : Nat} (narrow : low < 256) :
    (withByte family x low).field 1 1 = family ∧ (withByte family x low).x = x ∧
      (withByte family x low).field 3 2 = low ∧ (withByte family x low).kk = BitVec.ofNat 8 low := by
  have bound := x.isLt
  have value : (withByte family x low).toNat = (family * 16 + x) * 256 + low := by
    simp only [withByte, BitVec.toNat_ofNat]; omega
  refine ⟨?_, Fin.ext ?_, ?_, BitVec.eq_of_toNat_eq ?_⟩
  · rw [Word.field_one_one]; omega
  · rw [Word.val_x]; omega
  · rw [Word.field_three_two]; omega
  · rw [Word.toNat_kk, BitVec.toNat_ofNat]; omega

theorem fields_nibbles (family : Nat) (small : family < 16) (x y n : Fin 16) :
    (nibbles family x y n).field 1 1 = family ∧ (nibbles family x y n).x = x ∧ (nibbles family x y n).y = y ∧
      (nibbles family x y n).field 4 1 = n ∧ (nibbles family x y n).n = n := by
  have boundX := x.isLt
  have boundY := y.isLt
  have boundN := n.isLt
  have value : (nibbles family x y n).toNat = ((family * 16 + x) * 16 + y) * 16 + n := by
    simp only [nibbles, BitVec.toNat_ofNat]; omega
  refine ⟨?_, Fin.ext ?_, Fin.ext ?_, ?_, Fin.ext ?_⟩
  · rw [Word.field_one_one]; omega
  · rw [Word.val_x]; omega
  · rw [Word.val_y]; omega
  · rw [Word.field_four_one]; omega
  · rw [Word.val_n]; omega

theorem aluOp?_aluNibble (op : AluOp) : aluOp? (aluNibble op) = some op := by cases op <;> rfl
theorem aluNibble_lt (op : AluOp) : aluNibble op < 16 := by cases op <;> decide

/-- Reading what was written gives back the instruction. A word outside the table may be the word of an
    instruction inside it, so `unknown` is left out. -/
theorem decode_encode {i : Instruction} (known : ∀ w, i ≠ .unknown w) : decode i.encode = i := by
  have narrow (kk : Byte) := kk.isLt
  cases i with
  | unknown w => exact absurd rfl (known w)
  | clearScreen => rfl
  | ret => rfl
  | jump addr | call addr | setIndex addr | jumpFromV0 addr => simp [decode, known?, encode, fields_withAddress]
  | setByte x kk | addByte x kk | random x kk => simp [decode, known?, encode, fields_withByte, narrow]
  | alu op x y =>
    have fields := fields_nibbles 0x8 (by decide) x y ⟨aluNibble op, aluNibble_lt op⟩
    simp [decode, known?, encode, aluOp?_aluNibble, fields]
  | draw x y n => simp [decode, known?, encode, fields_nibbles]
  | skip c =>
    cases c with
    | equalsByte x kk | differsFromByte x kk => simp [decode, known?, encode, fields_withByte, narrow]
    | equal x y =>
      have fields := fields_nibbles 0x5 (by decide) x y 0
      simp only [Fin.val_zero] at fields
      simp [decode, known?, encode, fields]
    | different x y =>
      have fields := fields_nibbles 0x9 (by decide) x y 0
      simp only [Fin.val_zero] at fields
      simp [decode, known?, encode, fields]
    | pressed x | notPressed x => simp [decode, known?, encode, fields_withByte, keyTest?]
  | _ x => simp [decode, known?, encode, fields_withByte, transfer?]

/-- A word reads as an instruction of the table exactly if it is the word of that instruction. -/
theorem decode_eq_iff {i : Instruction} (known : ∀ w, i ≠ .unknown w) (w : Word) : decode w = i ↔ w = i.encode := by
  constructor
  · rintro rfl; exact (encode_decode w).symm
  · rintro rfl; exact decode_encode known

theorem encode_inj {i j : Instruction} (known : ∀ w, i ≠ .unknown w) (other : ∀ w, j ≠ .unknown w) :
    i.encode = j.encode ↔ i = j := by
  rw [eq_comm, ← decode_eq_iff known, decode_encode other, eq_comm]

end Chip8.Instruction
