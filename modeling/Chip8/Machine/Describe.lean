import Chip8.Machine
import Chip8.Text.Hex

/-!
What is said about an instruction that ran. The text depends only on the machine before and after it; a
skip that was not taken and a wait that goes on are passed over in silence.
-/
namespace Chip8
open Text
open Registers (label)

/-- Why a skip is taken. -/
def Condition.reason (registers : Registers) : Condition → String
  | equalsByte x kk => label x ++ " == " ++ toString kk.toNat
  | differsFromByte x kk => label x ++ " != " ++ toString kk.toNat
  | equal x y => label x ++ " == " ++ label y
  | different x y => label x ++ " != " ++ label y
  | pressed x => "key " ++ Hex.upper 1 (registers.get x).toNat ++ " pressed"
  | notPressed x => "key " ++ Hex.upper 1 (registers.get x).toNat ++ " not pressed"

/-- An operation on registers with the values it left behind. -/
def AluOp.remark (op : AluOp) (x y : Register) (after : Registers) : String :=
  let value (r : Register) : String := toString (after.get r).toNat
  let logical (word : String) : String := label x ++ " = " ++ label x ++ " " ++ word ++ " " ++ label y ++ " -> " ++ value x
  let flagged (what flag : String) : String := what ++ value x ++ ", " ++ flag ++ "=" ++ value Registers.flag
  match op with
  | .copy => "Copy " ++ label y ++ " (" ++ value y ++ ") into " ++ label x
  | .or => logical "OR"
  | .and => logical "AND"
  | .xor => logical "XOR"
  | .add => flagged ("Add " ++ label y ++ " to " ++ label x ++ ": result ") "carry"
  | .subtract => flagged ("Subtract " ++ label y ++ " from " ++ label x ++ ": result ") "NOT borrow"
  | .shiftRight => flagged ("Shift " ++ label x ++ " right by 1: ") "least significant bit"
  | .subtractFrom => flagged ("Set " ++ label x ++ " = " ++ label y ++ " - " ++ label x ++ ": result ") "NOT borrow"
  | .shiftLeft => flagged ("Shift " ++ label x ++ " left by 1: ") "most significant bit"

namespace Machine
variable {τ : Type}

/-- The remark on an instruction that took the machine from `before` to `after`. -/
def remark? (before : Machine τ) (i : Instruction) (after : Machine τ) : Option String :=
  let value (x : Register) : String := toString (after.registers.get x).toNat
  match i with
  | .clearScreen => some "Clear the display (all pixels turned off)"
  | .ret => some ("Return to " ++ Hex.marked after.core.pc.addr)
  | .jump addr => some ("Jump to address " ++ Hex.marked addr.toNat)
  | .call addr => some ("Call subroutine at " ++ Hex.marked addr.toNat)
  | .skip c =>
    if after.core.pc = before.core.pc then none else some ("Skip next instruction: " ++ c.reason before.registers)
  | .setByte x kk => some ("Set " ++ label x ++ " = " ++ toString kk.toNat)
  | .addByte x kk => some ("Add " ++ toString kk.toNat ++ " to " ++ label x ++ ": " ++ value x)
  | .alu op x y => some (op.remark x y after.registers)
  | .setIndex addr => some ("Set I = " ++ Hex.upper 3 addr.toNat)
  | .jumpFromV0 addr => some ("Jump to address V0 + " ++ Hex.upper 3 addr.toNat ++ " = " ++ Hex.upper 3 after.core.pc.addr)
  | .random x kk => some ("Set " ++ label x ++ " = random_byte & " ++ toString kk.toNat ++ " -> " ++ value x)
  | .draw x y _ =>
    some ("Drew sprite at (" ++ toString (before.registers.get x).toNat ++ ", " ++ toString (before.registers.get y).toNat
      ++ "), collision=" ++ value Registers.flag)
  | .readDelay x => some ("Set " ++ label x ++ " = delay timer " ++ value x)
  | .waitKey x =>
    if after.waiting then none else some ("Key " ++ Hex.upper 1 (after.registers.get x).toNat ++ " stored in " ++ label x)
  | .setDelay x => some ("Set delay timer = " ++ label x ++ " (" ++ value x ++ ")")
  | .setSound x => some ("Set sound timer = " ++ label x ++ " (" ++ value x ++ ")")
  | .addIndex x => some ("Set I = I + " ++ label x ++ " = " ++ Hex.upper 3 after.core.index.addr)
  | .pointGlyph x =>
    some ("Set I = glyph " ++ Hex.upper 1 ((before.registers.get x).toNat % 16) ++ " at " ++ Hex.upper 3 after.core.index.addr)
  | .storeDecimal x =>
    let digits := (Core.decimalDigits (before.registers.get x)).map fun d => toString d.toNat
    some ("BCD of " ++ label x ++ " -> [" ++ ", ".intercalate digits ++ "]")
  | .storeRegisters x => some ("Stored V0.." ++ label x ++ " at " ++ Hex.upper 3 before.core.index.addr)
  | .loadRegisters x => some ("Loaded V0.." ++ label x ++ " from " ++ Hex.upper 3 before.core.index.addr)
  | .unknown _ => none

/-- Every instruction is remarked on but an unknown word, a skip that was not taken and a wait that goes on. -/
theorem remark?_eq_none_iff {before after : Machine τ} {i : Instruction} : before.remark? i after = none ↔
    (∃ w, i = .unknown w) ∨ (∃ c, i = .skip c ∧ after.core.pc = before.core.pc) ∨
      ∃ x, i = .waitKey x ∧ after.waiting = true := by
  cases i <;> simp [remark?]

/-- The warning about an instruction met by the machine: an unknown word that was not reported before. -/
def warning? (before : Machine τ) : Instruction → Option String
  | .unknown w =>
    if before.isReported w then none
    else some ("Unknown opcode: " ++ Hex.upper 4 w.toNat ++ " at " ++ Hex.upper 3 (before.core.pc.addr - 2))
  | _ => none

theorem warning?_of_known {before : Machine τ} {i : Instruction} (known : ∀ w, i ≠ .unknown w) :
    before.warning? i = none := by
  cases i with
  | unknown w => exact absurd rfl (known w)
  | _ => rfl

end Machine

end Chip8
