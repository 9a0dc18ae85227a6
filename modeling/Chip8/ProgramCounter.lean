import Chip8.Text.Hex

/-!
The program counter and the end of the loaded program. Stepping past the end is how a program that
falls off its last instruction ends (`ProgramCounter.inside`).
-/
namespace Chip8

/-- The address of the next instruction, and the end of the program. Neither wraps. -/
structure ProgramCounter where
  addr : Int
  limit : Int
deriving DecidableEq

namespace ProgramCounter

/-- Past one instruction. -/
def advance (p : ProgramCounter) : ProgramCounter := { p with addr := p.addr + 2 }

/-- The counter has not passed the end of the program. -/
def inside (p : ProgramCounter) : Bool := decide (p.addr ≤ p.limit)

/-- Back by one instruction, unless that would leave memory at its start. -/
def rewind (p : ProgramCounter) : ProgramCounter := if 2 ≤ p.addr then { p with addr := p.addr - 2 } else p

/-- The program ends `length` bytes from here. -/
def setLength (p : ProgramCounter) (length : Int) : ProgramCounter := { p with limit := p.addr + length }

def jump (p : ProgramCounter) (addr : Int) : ProgramCounter := { p with addr }

def describe (p : ProgramCounter) : String :=
  "ProgramCounter(0x" ++ Text.Hex.upper 3 p.addr ++ ", end=0x" ++ Text.Hex.upper 3 p.limit ++ ")"

theorem rewind_advance (p : ProgramCounter) (inMemory : 0 ≤ p.addr) : p.advance.rewind = p := by
  unfold rewind advance
  rw [if_pos (show (2 : Int) ≤ p.addr + 2 by omega)]
  cases p; simp

end ProgramCounter

end Chip8
