import Chip8.Instruction

/-!
Reading an instruction from its word. The high nibble selects the family; within a family the low
nibble or the low byte may select further, and a word that no entry of the table covers decodes to
`unknown`.
-/
namespace Chip8.Instruction

/-- The operation that the low nibble of `8xy?` names. -/
def aluOp? : Nat → Option AluOp
  | 0x0 => some .copy
  | 0x1 => some .or
  | 0x2 => some .and
  | 0x3 => some .xor
  | 0x4 => some .add
  | 0x5 => some .subtract
  | 0x6 => some .shiftRight
  | 0x7 => some .subtractFrom
  | 0xE => some .shiftLeft
  | _ => none

/-- The key test that the low byte of `Ex??` names. -/
def keyTest? (x : Register) : Nat → Option Instruction
  | 0x9E => some (.skip (.pressed x))
  | 0xA1 => some (.skip (.notPressed x))
  | _ => none

/-- The transfer that the low byte of `Fx??` names. -/
def transfer? (x : Register) : Nat → Option Instruction
  | 0x07 => some (.readDelay x)
  | 0x0A => some (.waitKey x)
  | 0x15 => some (.setDelay x)
  | 0x18 => some (.setSound x)
  | 0x1E => some (.addIndex x)
  | 0x29 => some (.pointGlyph x)
  | 0x33 => some (.storeDecimal x)
  | 0x55 => some (.storeRegisters x)
  | 0x65 => some (.loadRegisters x)
  | _ => none

/-- The entry of the table that covers the word. -/
def known? (w : Word) : Option Instruction :=
  match w.field 1 1 with
  | 0x0 => if w = 0x00E0 then some .clearScreen else if w = 0x00EE then some .ret else none
  | 0x1 => some (.jump w.nnn)
  | 0x2 => some (.call w.nnn)
  | 0x3 => some (.skip (.equalsByte w.x w.kk))
  | 0x4 => some (.skip (.differsFromByte w.x w.kk))
  | 0x5 => if w.field 4 1 = 0 then some (.skip (.equal w.x w.y)) else none
  | 0x6 => some (.setByte w.x w.kk)
  | 0x7 => some (.addByte w.x w.kk)
  | 0x8 => (aluOp? (w.field 4 1)).map fun op => .alu op w.x w.y
  | 0x9 => if w.field 4 1 = 0 then some (.skip (.different w.x w.y)) else none
  | 0xA => some (.setIndex w.nnn)
  | 0xB => some (.jumpFromV0 w.nnn)
  | 0xC => some (.random w.x w.kk)
  | 0xD => some (.draw w.x w.y w.n)
  | 0xE => keyTest? w.x (w.field 3 2)
  | 0xF => transfer? w.x (w.field 3 2)
  | _ => none

/-- The instruction of a word. Every word has one. -/
def decode (w : Word) : Instruction := (known? w).getD (.unknown w)

end Chip8.Instruction
