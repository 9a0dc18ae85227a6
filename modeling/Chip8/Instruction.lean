import Chip8.Registers

/-!
What the machine can be told to do. An instruction holds its operands decoded: registers and nibbles
below 16, byte constants and 12-bit addresses. Two tests are grouped under `Condition`, the arithmetic
between registers under `AluOp`; a word outside the table is an instruction of its own, `unknown`.
-/
namespace Chip8

/-- When a skip is taken. -/
inductive Condition where
  | equalsByte (x : Register) (kk : Byte)
  | differsFromByte (x : Register) (kk : Byte)
  | equal (x y : Register)
  | different (x y : Register)
  | pressed (x : Register)
  | notPressed (x : Register)
deriving DecidableEq

namespace Condition

/-- The test looks at the keypad. -/
def readsKeys : Condition → Bool
  | pressed _ | notPressed _ => true
  | _ => false

end Condition

inductive Instruction where
  | clearScreen
  | ret
  | jump (addr : Address)
  | call (addr : Address)
  | skip (condition : Condition)
  | setByte (x : Register) (kk : Byte)
  | addByte (x : Register) (kk : Byte)
  | alu (op : AluOp) (x y : Register)
  | setIndex (addr : Address)
  | jumpFromV0 (addr : Address)
  | random (x : Register) (kk : Byte)
  | draw (x y : Register) (n : Fin 16)
  | readDelay (x : Register)
  | waitKey (x : Register)
  | setDelay (x : Register)
  | setSound (x : Register)
  | addIndex (x : Register)
  | pointGlyph (x : Register)
  | storeDecimal (x : Register)
  | storeRegisters (x : Register)
  | loadRegisters (x : Register)
  | unknown (word : Word)
deriving DecidableEq

end Chip8
