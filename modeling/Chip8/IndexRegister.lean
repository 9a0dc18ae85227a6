import Chip8.Text.Hex

/-!
The index register I. Setting it keeps sixteen bits, of which memory uses the low twelve.
-/
namespace Chip8

structure IndexRegister where
  addr : Int
deriving DecidableEq

namespace IndexRegister

/-- The register with the low sixteen bits of the address. -/
def ofInt (addr : Int) : IndexRegister := ⟨addr % 65536⟩

def describe (i : IndexRegister) : String := "IndexRegister(0x" ++ Text.Hex.upper 3 i.addr ++ ")"

theorem ofInt_addr_bounds (addr : Int) : 0 ≤ (ofInt addr).addr ∧ (ofInt addr).addr < 65536 := by
  simp only [ofInt]; omega

end IndexRegister

end Chip8
