import Chip8.Fault

/-!
The return addresses of open calls, at most `depth` of them. A stack of no or negative depth takes none.
-/
namespace Chip8

/-- Return addresses, the latest first. -/
structure CallStack (depth : Int) where
  addresses : List Int
deriving DecidableEq

namespace CallStack
variable {depth : Int}

def empty : CallStack depth := ⟨[]⟩

def push (s : CallStack depth) (addr : Int) : Except Fault (CallStack depth) :=
  if depth ≤ s.addresses.length then .error (.stackOverflow addr) else .ok ⟨addr :: s.addresses⟩

/-- The latest address and the stack without it. -/
def pop (s : CallStack depth) : Except Fault (Int × CallStack depth) :=
  match s.addresses with
  | [] => .error .stackUnderflow
  | addr :: rest => .ok (addr, ⟨rest⟩)

/-- The addresses in the order in which they were pushed. -/
def toList (s : CallStack depth) : List Int := s.addresses.reverse

end CallStack

end Chip8
