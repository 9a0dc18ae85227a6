import Chip8.Instruction

/-!
The word of an instruction: the family nibble, then the operands from the most significant nibble down.
-/
namespace Chip8.Instruction

/-- The word of four nibbles, given as a family and three values below 16. -/
def nibbles (family a b c : Nat) : Word := BitVec.ofNat 16 (((family * 16 + a) * 16 + b) * 16 + c)
/-- The word of a family, a register and a byte. -/
def withByte (family : Nat) (x : Register) (kk : Nat) : Word := BitVec.ofNat 16 ((family * 16 + x) * 256 + kk)
/-- The word of a family and an address. -/
def withAddress (family : Nat) (addr : Address) : Word := BitVec.ofNat 16 (family * 4096 + addr.toNat)

/-- The low nibble of `8xy?` for the operation. -/
def aluNibble : AluOp → Nat
  | .copy => 0x0
  | .or => 0x1
  | .and => 0x2
  | .xor => 0x3
  | .add => 0x4
  | .subtract => 0x5
  | .shiftRight => 0x6
  | .subtractFrom => 0x7
  | .shiftLeft => 0xE

def encode : Instruction → Word
  | clearScreen => 0x00E0
  | ret => 0x00EE
  | jump addr => withAddress 0x1 addr
  | call addr => withAddress 0x2 addr
  | skip (.equalsByte x kk) => withByte 0x3 x kk.toNat
  | skip (.differsFromByte x kk) => withByte 0x4 x kk.toNat
  | skip (.equal x y) => nibbles 0x5 x y 0
  | setByte x kk => withByte 0x6 x kk.toNat
  | addByte x kk => withByte 0x7 x kk.toNat
  | alu op x y => nibbles 0x8 x y (aluNibble op)
  | skip (.different x y) => nibbles 0x9 x y 0
  | setIndex addr => withAddress 0xA addr
  | jumpFromV0 addr => withAddress 0xB addr
  | random x kk => withByte 0xC x kk.toNat
  | draw x y n => nibbles 0xD x y n
  | skip (.pressed x) => withByte 0xE x 0x9E
  | skip (.notPressed x) => withByte 0xE x 0xA1
  | readDelay x => withByte 0xF x 0x07
  | waitKey x => withByte 0xF x 0x0A
  | setDelay x => withByte 0xF x 0x15
  | setSound x => withByte 0xF x 0x18
  | addIndex x => withByte 0xF x 0x1E
  | pointGlyph x => withByte 0xF x 0x29
  | storeDecimal x => withByte 0xF x 0x33
  | storeRegisters x => withByte 0xF x 0x55
  | loadRegisters x => withByte 0xF x 0x65
  | unknown word => word

end Chip8.Instruction
