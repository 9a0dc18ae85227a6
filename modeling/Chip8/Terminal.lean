import Chip8.Emulator.Loop

/-!
The window in a terminal: frames as lines of text, and lines of text as held keys.
-/
namespace Chip8.Terminal

/-- A row of the screen, two characters to a pixel. -/
private def rowText (r : Row) : String :=
  String.join ((List.range 64).map fun x => if r.getMsbD x then "██" else "  ")

/-- A frame as lines of text, drawn over what the terminal shows. -/
def picture (f : Frame) : String := "\x1b[H" ++ String.join (f.toList.map fun r => rowText r ++ "\n")

/-- A line of input holds the keys that it names, of either case, until the next line. A point closes
    the window. -/
def poll (line : String) : Poll :=
  let keys := line.toList.map fun c => String.singleton c.toUpper
  ⟨some keys, keys.contains "."⟩

end Chip8.Terminal
