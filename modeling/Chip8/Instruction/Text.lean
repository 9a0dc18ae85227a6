import Chip8.Instruction

/-!
The written form of an instruction: its name and its operands, each with its name and its decimal
value, such as `Display(x=1, y=2, n=5)`.
-/
namespace Chip8.Instruction

def aluName : AluOp → String
  | .copy => "CopyRegister"
  | .or => "Or"
  | .and => "And"
  | .xor => "XOr"
  | .add => "Add"
  | .subtract => "SubtractForward"
  | .shiftRight => "RightShift"
  | .subtractFrom => "SubtractBackward"
  | .shiftLeft => "LeftShift"

def conditionName : Condition → String
  | .equalsByte .. => "SkipEqualConstant"
  | .differsFromByte .. => "SkipNotEqualConstant"
  | .equal .. => "SkipEqualRegister"
  | .different .. => "SkipNotEqualRegister"
  | .pressed _ => "SkipIfPressed"
  | .notPressed _ => "SkipIfNotPressed"

def name : Instruction → String
  | clearScreen => "ClearScreen"
  | ret => "PopSubroutine"
  | jump _ => "Jump"
  | call _ => "PushSubroutine"
  | skip c => conditionName c
  | setByte .. => "SetRegister"
  | addByte .. => "AddToRegister"
  | alu op _ _ => aluName op
  | setIndex _ => "SetIndexRegister"
  | jumpFromV0 _ => "JumpWithOffset"
  | random .. => "Random"
  | draw .. => "Display"
  | readDelay _ => "CopyDelayToRegister"
  | waitKey _ => "GetKey"
  | setDelay _ => "CopyRegisterToDelay"
  | setSound _ => "CopyRegisterToSound"
  | addIndex _ => "AddToIndex"
  | pointGlyph _ => "PointChar"
  | storeDecimal _ => "ToDecimal"
  | storeRegisters _ => "StoreRegisterToMemory"
  | loadRegisters _ => "LoadRegisterFromMemory"
  | unknown _ => "Unrecognized"

def conditionOperands : Condition → List (String × Nat)
  | .equalsByte x kk | .differsFromByte x kk => [("x", x), ("kk", kk.toNat)]
  | .equal x y | .different x y => [("x", x), ("y", y)]
  | .pressed x | .notPressed x => [("x", x)]

/-- The operands with their names, in order. -/
def operands : Instruction → List (String × Nat)
  | clearScreen | ret => []
  | jump addr | call addr | setIndex addr | jumpFromV0 addr => [("addr", addr.toNat)]
  | skip c => conditionOperands c
  | setByte x kk | addByte x kk | random x kk => [("x", x), ("kk", kk.toNat)]
  | alu _ x y => [("x", x), ("y", y)]
  | draw x y n => [("x", x), ("y", y), ("n", n)]
  | readDelay x | waitKey x | setDelay x | setSound x | addIndex x | pointGlyph x | storeDecimal x
  | storeRegisters x | loadRegisters x => [("x", x)]
  | unknown word => [("raw", word.toNat)]

def render (i : Instruction) : String :=
  i.name ++ "(" ++ ", ".intercalate (i.operands.map fun (key, value) => key ++ "=" ++ toString value) ++ ")"

/-- One instruction of every name. -/
def samples : List Instruction :=
  let x := Registers.first
  [clearScreen, ret, jump 0#12, call 0#12, skip (.equalsByte x 0#8), skip (.differsFromByte x 0#8), skip (.equal x x),
    setByte x 0#8, addByte x 0#8, alu .copy x x, alu .or x x, alu .and x x, alu .xor x x, alu .add x x, alu .subtract x x,
    alu .shiftRight x x, alu .subtractFrom x x, alu .shiftLeft x x, skip (.different x x), setIndex 0#12,
    jumpFromV0 0#12, random x 0#8, draw x x x, skip (.pressed x), skip (.notPressed x), readDelay x, waitKey x,
    setDelay x, setSound x, addIndex x, pointGlyph x, storeDecimal x, storeRegisters x, loadRegisters x, unknown 0#16]

/-- The names of all instructions, in the order of the table. -/
def names : List String := samples.map name

end Chip8.Instruction
