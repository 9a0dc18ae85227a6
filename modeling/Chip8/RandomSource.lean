import Chip8.Word

/-!
A stream of random bytes and how far it was used.
-/
namespace Chip8

structure RandomSource where
  bytes : Nat → Byte
  used : Nat

namespace RandomSource

/-- The numbers in turn, over and over; each gives its low byte. No numbers give zeros. -/
def cycle (numbers : Array Int) : RandomSource := ⟨fun i => BitVec.ofInt 8 (numbers[i % numbers.size]?.getD 0), 0⟩

/-- Bytes mixed from a seed. -/
def seeded (seed : Nat) : RandomSource :=
  ⟨fun i => BitVec.ofNat 8 ((mixHash (hash seed) (hash i)).toNat / 16777216), 0⟩

def next (r : RandomSource) : Byte × RandomSource := (r.bytes r.used, { r with used := r.used + 1 })

end RandomSource

end Chip8
