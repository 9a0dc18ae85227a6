import Chip8.Machine

/-!
What each instruction does. The counter already stands behind the instruction, so a jump replaces it and
a skip advances it once more. Only a return, a call and a taken skip can fault, and then nothing but the
counter has changed; a look at the keypad comes before the test that needs it.
-/
namespace Chip8

/-- The key a register names: its low four bits. -/
def Registers.key (V : Registers) (x : Register) : Key := lowNibble (V.get x).toNat

/-- The test of a skip. -/
def Condition.holds (V : Registers) (k : Keypad) : Condition → Bool
  | equalsByte x kk => V.get x == kk
  | differsFromByte x kk => V.get x != kk
  | equal x y => V.get x == V.get y
  | different x y => V.get x != V.get y
  | pressed x => k.isPressed (V.key x)
  | notPressed x => !k.isPressed (V.key x)

namespace Machine
variable {τ : Type}

/-- The key that ends a wait: the lowest one down or, where a release is waited for, the lowest one
    released since the wait began. -/
def awaited? (m : Machine τ) : Option Key :=
  if m.dialect.keyRelease then if m.waiting then m.keypad.firstReleased? else none else m.keypad.firstPressed?

/-- One attempt at a wait for a key: without one the counter goes back, so that the wait runs again. -/
def waitKey (m : Machine τ) (x : Register) : Machine τ :=
  let m := m.look
  match m.awaited? with
  | none => { m with waiting := true, core := m.core.rewind }
  | some key => { m with waiting := false, registers := m.registers.set x (BitVec.ofNat 8 key) }

/-- Where I goes after registers up to Vx were stored or loaded. -/
def indexAfter (m : Machine τ) (x : Register) (core : Core) : Core :=
  if m.dialect.loadStoreIncrementsIndex then core.setIndex (m.core.index.addr + x.val + 1) else core

/-- The register a shift or another operation takes its second operand from. -/
def source (m : Machine τ) (op : AluOp) (x y : Register) : Register :=
  if op.isShift && !m.dialect.shiftUsesVy then x else y

/-- Skips the next instruction if the test holds. -/
def skip (m : Machine τ) (c : Condition) : Attempt (Machine τ) Unit :=
  let m := if c.readsKeys then m.look else m
  if c.holds m.registers m.keypad then m.core.advance.within fun core => { m with core } else .done m ()

/-- Adds a register to I. -/
def addIndex (m : Machine τ) (x : Register) : Machine τ :=
  let total := m.core.index.addr + (m.registers.get x).toNat
  { m with
    core := m.core.setIndex total
    registers := if m.dialect.indexOverflow then m.registers.setFlag (decide (0xFFF < total)) else m.registers }

/-- Draws the `n` bytes at I at the place that two registers give; VF tells whether a set pixel was met. -/
def draw (m : Machine τ) (x y : Register) (n : Nat) : Machine τ :=
  let (drawn, met) := m.paint (m.registers.get x).toNat (m.registers.get y).toNat (m.core.memory.read m.core.index.addr n)
  { drawn with registers := drawn.registers.setFlag met }

/-- V0 to Vx go to memory from I on. -/
def storeRegisters (m : Machine τ) (x : Register) : Machine τ :=
  let core := { m.core with memory := m.core.memory.write m.core.index.addr (m.registers.upTo x) }
  { m with core := m.indexAfter x core }

/-- V0 to Vx come from memory from I on. -/
def loadRegisters (m : Machine τ) (x : Register) : Machine τ :=
  { m with
    registers := m.registers.putAll (m.core.memory.read m.core.index.addr (x + 1))
    core := m.indexAfter x m.core }

def execute (m : Machine τ) : Instruction → Attempt (Machine τ) Unit
  | .clearScreen => .done { m with screen := m.screen.clear } ()
  | .ret => m.core.ret.within fun core => { m with core }
  | .jump addr => .done { m with core := m.core.jump addr.toNat } ()
  | .call addr => (m.core.call addr.toNat).within fun core => { m with core }
  | .skip c => m.skip c
  | .setByte x kk => .done { m with registers := m.registers.set x kk } ()
  | .addByte x kk => .done { m with registers := m.registers.addByte x kk } ()
  | .alu op x y => .done { m with registers := m.registers.alu op x (m.source op x y) } ()
  | .setIndex addr => .done { m with core := m.core.setIndex addr.toNat } ()
  | .jumpFromV0 addr => .done { m with core := m.core.jump (addr.toNat + (m.registers.get Registers.first).toNat) } ()
  | .random x kk =>
    .done { m with registers := m.registers.set x (m.random.next.1 &&& kk), random := m.random.next.2 } ()
  | .draw x y n => .done (m.draw x y n) ()
  | .readDelay x => .done { m with registers := m.registers.set x m.delay.count } ()
  | .waitKey x => .done (m.waitKey x) ()
  | .setDelay x => .done (m.setDelay (m.registers.get x)) ()
  | .setSound x => .done (m.setSound (m.registers.get x)) ()
  | .addIndex x => .done (m.addIndex x) ()
  | .pointGlyph x => .done { m with core := m.core.setIndex (Core.glyphAddress (m.registers.key x).val) } ()
  | .storeDecimal x => .done { m with core := m.core.storeDecimal (m.registers.get x) } ()
  | .storeRegisters x => .done (m.storeRegisters x) ()
  | .loadRegisters x => .done (m.loadRegisters x) ()
  | .unknown w => .done { m with reported := if m.isReported w then m.reported else w :: m.reported } ()

end Machine

end Chip8
