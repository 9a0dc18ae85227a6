import Chip8.Binary64
import Chip8.Bytes
import Chip8.CallStack
import Chip8.CommandLine.Options
import Chip8.CommandLine.Parse
import Chip8.CommandLine.Token
import Chip8.Core
import Chip8.Dialect
import Chip8.Directory
import Chip8.Emulator
import Chip8.Emulator.Loop
import Chip8.Fault
import Chip8.Index
import Chip8.IndexRegister
import Chip8.Instruction
import Chip8.Instruction.Decode
import Chip8.Instruction.Encode
import Chip8.Instruction.Text
import Chip8.Journal
import Chip8.Keyboard
import Chip8.Keypad
import Chip8.Launch
import Chip8.Machine
import Chip8.Machine.Describe
import Chip8.Machine.Execute
import Chip8.Main
import Chip8.Memory
import Chip8.ProgramCounter
import Chip8.RandomSource
import Chip8.Registers
import Chip8.RomError
import Chip8.Screen
import Chip8.Slot
import Chip8.Terminal
import Chip8.Text.Digit
import Chip8.Text.Hex
import Chip8.Text.Numeral
import Chip8.Text.Printable
import Chip8.Text.Quoted
import Chip8.Time
import Chip8.Timer
import Chip8.Word
import Chip8.Proofs.RoundTrip
import Chip8.Proofs.Table
import Chip8.Proofs.Cycle
import Chip8.Proofs.Numbers
import Chip8.Proofs.Run
import Chip8.Proofs.Flow
import Chip8.Proofs.Standing
import Chip8.Proofs.Faults
import Chip8.Proofs.Bounds
import Chip8.Proofs.Display
import Chip8.Proofs.Sprite
import Chip8.Proofs.KeyWait
import Chip8.Proofs.History
import Chip8.Proofs.Subroutine
import Chip8.Proofs.Seclusion
import Chip8.Proofs.Pace
import Chip8.Proofs.Countdown
import Chip8.Proofs.Course
import Chip8.Proofs.Refresh
import Chip8.Proofs.Beep
import Chip8.Proofs.Straight
import Chip8.Proofs.Finality
import Chip8.Proofs.Picture
import Chip8.Proofs.Dialects
import Chip8.Proofs.Outcome
import Chip8.Proofs.Twins
import Chip8.Proofs.Chronicle
import Chip8.Proofs.Switch
import Chip8.Proofs.Footprint
import Chip8.Proofs.Alignment
import Chip8.Proofs.Transfer
import Chip8.Proofs.Flags
import Chip8.Proofs.Pass
import Chip8.Proofs.Closing
import Chip8.Proofs.Drawing
import Chip8.Proofs.Skips
import Chip8.Proofs.Decimal
import Chip8.Proofs.Loading
import Chip8.Proofs.Store
import Chip8.Proofs.Looks
