import Chip8.Memory
import Chip8.ProgramCounter
import Chip8.IndexRegister
import Chip8.CallStack
import Chip8.RomError

/-!
Memory with the three things that point into it: the program counter, the index register and the call
stack. Loading is all or nothing (`Core.load`); fetching moves the counter even where the program has
already ended (`Core.fetch`).
-/
namespace Chip8

/-- A value that has no shape in the font. -/
structure GlyphError where
  digit : Int
deriving DecidableEq

namespace GlyphError

def message (e : GlyphError) : String := "no glyph for " ++ toString e.digit

end GlyphError

structure Core where
  memory : Memory
  pc : ProgramCounter
  index : IndexRegister
  stack : CallStack 16
deriving DecidableEq

namespace Core

/-- Before any program: the counter stands where programs begin. -/
def initial : Core := ⟨.initial, ⟨Memory.programStart, Memory.programStart⟩, ⟨0⟩, .empty⟩

/-- The bytes a program may take. -/
def room : Nat := 4096 - Memory.programStart

/-- The program in memory, and the counter at its first byte. What lies behind it stays. -/
def load (c : Core) (program : Array Byte) : Except RomError Core :=
  if room < program.size then .error (.tooLarge program.size room)
  else .ok { c with
    memory := c.memory.overlay Memory.programStart program
    pc := ⟨Memory.programStart, Memory.programStart + program.size⟩ }

/-- Past one instruction; the program has finished if that passes its end. -/
def advance (c : Core) : Attempt Core Unit :=
  let c := { c with pc := c.pc.advance }
  if c.pc.inside then .done c () else .stopped c (.finished c.pc.addr)

/-- The word at the counter, which moves past it. -/
def fetch (c : Core) : Attempt Core Word :=
  c.advance.andThen fun next () => .done next (c.memory.word c.pc.addr)

def jump (c : Core) (addr : Int) : Core := { c with pc := c.pc.jump addr }

def setIndex (c : Core) (addr : Int) : Core := { c with index := .ofInt addr }

def rewind (c : Core) : Core := { c with pc := c.pc.rewind }

def push (c : Core) (addr : Int) : Attempt Core Unit :=
  match c.stack.push addr with
  | .ok stack => .done { c with stack } ()
  | .error f => .stopped c f

def pop (c : Core) : Attempt Core Int :=
  match c.stack.pop with
  | .ok (addr, stack) => .done { c with stack } addr
  | .error f => .stopped c f

/-- The return address is kept, then the counter jumps. -/
def call (c : Core) (addr : Int) : Attempt Core Unit :=
  (c.push c.pc.addr).andThen fun c () => .done (c.jump addr) ()

def ret (c : Core) : Attempt Core Unit :=
  c.pop.andThen fun c addr => .done (c.jump addr) ()

/-- Where the shape of a digit lies. -/
def glyphAddress (digit : Nat) : Nat := Memory.fontStart + digit * Memory.glyphSize

def glyph? (digit : Int) : Except GlyphError Nat :=
  if 0 ≤ digit ∧ digit ≤ 15 then .ok (glyphAddress digit.toNat) else .error ⟨digit⟩

/-- Hundreds, tens and ones. -/
def decimalDigits (b : Byte) : List Byte :=
  [BitVec.ofNat 8 (b.toNat / 100), BitVec.ofNat 8 (b.toNat / 10 % 10), BitVec.ofNat 8 (b.toNat % 10)]

/-- The decimal digits of a byte at I and the two cells after it. -/
def storeDecimal (c : Core) (b : Byte) : Core :=
  { c with memory := c.memory.write c.index.addr (decimalDigits b) }

theorem advance_of_le {c : Core} (room : c.pc.addr + 2 ≤ c.pc.limit) :
    c.advance = .done { c with pc := c.pc.advance } () := by
  simp [advance, ProgramCounter.advance, ProgramCounter.inside, room]

theorem advance_of_lt {c : Core} (beyond : c.pc.limit < c.pc.addr + 2) :
    c.advance = .stopped { c with pc := c.pc.advance } (.finished (c.pc.addr + 2)) := by
  have outside : ¬ c.pc.addr + 2 ≤ c.pc.limit := by omega
  simp [advance, ProgramCounter.advance, ProgramCounter.inside, outside]

theorem fetch_of_le {c : Core} (room : c.pc.addr + 2 ≤ c.pc.limit) :
    c.fetch = .done { c with pc := c.pc.advance } (c.memory.word c.pc.addr) := by
  simp [fetch, advance_of_le room]

theorem fetch_of_lt {c : Core} (beyond : c.pc.limit < c.pc.addr + 2) :
    c.fetch = .stopped { c with pc := c.pc.advance } (.finished (c.pc.addr + 2)) := by
  simp [fetch, advance_of_lt beyond]

theorem state_fetch (c : Core) : c.fetch.state = { c with pc := c.pc.advance } := by
  rcases Int.lt_or_le c.pc.limit (c.pc.addr + 2) with beyond | room
  · rw [fetch_of_lt beyond, Attempt.state_stopped]
  · rw [fetch_of_le room, Attempt.state_done]

theorem ret_of_nil {c : Core} (empty : c.stack.addresses = []) : c.ret = .stopped c .stackUnderflow := by
  simp [ret, pop, CallStack.pop, empty]

theorem ret_of_cons {c : Core} {addr : Int} {rest : List Int} (calls : c.stack.addresses = addr :: rest) :
    c.ret = .done { c with stack := ⟨rest⟩, pc := c.pc.jump addr } () := by
  simp [ret, pop, CallStack.pop, calls, jump]

theorem call_of_lt {c : Core} (free : c.stack.addresses.length < 16) (addr : Int) :
    c.call addr = .done { c with stack := ⟨c.pc.addr :: c.stack.addresses⟩, pc := c.pc.jump addr } () := by
  have room : ¬ (16 : Int) ≤ c.stack.addresses.length := by omega
  simp [call, push, CallStack.push, room, jump]

theorem call_of_le {c : Core} (full : 16 ≤ c.stack.addresses.length) (addr : Int) :
    c.call addr = .stopped c (.stackOverflow c.pc.addr) := by
  have deep : (16 : Int) ≤ c.stack.addresses.length := by omega
  simp [call, push, CallStack.push, deep]

end Core

end Chip8
