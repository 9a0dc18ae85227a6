import Chip8.Core
import Chip8.Dialect
import Chip8.Instruction
import Chip8.Keyboard
import Chip8.Keypad
import Chip8.RandomSource
import Chip8.Screen
import Chip8.Timer

/-!
The machine: everything an instruction can read or change, with the keyboard, the random bytes and the
clock that it draws on.
-/
namespace Chip8

structure Machine (τ : Type) where
  core : Core
  registers : Registers
  delay : Timer τ
  sound : Timer τ
  screen : Screen
  keypad : Keypad
  /-- A wait for a key has begun and not ended. -/
  waiting : Bool
  /-- The unknown words met so far; each is reported once. -/
  reported : List Word
  dialect : Dialect
  keyboard : Keyboard
  random : RandomSource
  clock : Clock τ

namespace Machine
variable {τ : Type}

/-- A machine without a program. The delay timer, then the sound timer, starts at a reading of the clock. -/
def initial (dialect : Dialect) (random : RandomSource) (clock : Clock τ) : Machine τ where
  core := .initial
  registers := .zero
  delay := .start 0 clock.read.now
  sound := .start 0 clock.read.read.now
  screen := .initial
  keypad := .initial
  waiting := false
  reported := []
  dialect := dialect
  keyboard := .holding []
  random := random
  clock := clock.read.read

def hold (m : Machine τ) (names : List String) : Machine τ := { m with keyboard := .holding names }

def advanceClock [Time τ] (m : Machine τ) (span : τ) : Machine τ := { m with clock := m.clock.advance span }

/-- The unknown word was reported before. -/
def isReported (m : Machine τ) (w : Word) : Bool := m.reported.any fun v => v = w

/-- A look at the keypad. -/
def look (m : Machine τ) : Machine τ :=
  { m with keypad := m.keypad.poll (Layout.keys m.keyboard.held), keyboard := m.keyboard.look }

/-- The delay timer is set at a reading of the clock. -/
def setDelay (m : Machine τ) (count : Byte) : Machine τ :=
  { m with delay := .start count m.clock.read.now, clock := m.clock.read }

/-- The sound timer is set at a reading of the clock. -/
def setSound (m : Machine τ) (count : Byte) : Machine τ :=
  { m with sound := .start count m.clock.read.now, clock := m.clock.read }

/-- Both timers tick, each at a reading of its own, the delay timer first. -/
def tickTimers [Time τ] (m : Machine τ) : Machine τ :=
  { m with
    delay := (m.delay.tick m.clock.read.now).1
    sound := (m.sound.tick m.clock.read.read.now).1
    clock := m.clock.read.read }

/-- Draws on the screen as the dialect has it. -/
def paint (m : Machine τ) (x y : Int) (rows : List Byte) : Machine τ × Bool :=
  let (screen, met) := m.screen.paint m.dialect.wrapSprites x y rows
  ({ m with screen }, met)

end Machine

end Chip8
