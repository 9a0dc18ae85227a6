import Chip8.Launch
import Chip8.Terminal

/-!
The program. It reads the file that the command line names, draws frames on the terminal, takes typed
lines for held keys and sleeps between passes; everything else is `Chip8.Launch` and `Chip8.Emulator`.
-/
namespace Chip8

/-- Reads a file, or says why it cannot be read. -/
private def readFile (path : String) : IO (Except PathError (Array Byte)) := do
  if path.toList.contains (Char.ofNat 0) then return .error .embeddedNul
  try
    let contents ← IO.FS.readBinFile path
    return .ok (contents.data.map fun b => BitVec.ofNat 8 b.toNat)
  catch e =>
    return .error <| .refused <| match e with
      | .noFileOrDirectory .. => .noSuchFile
      | .inappropriateType .. => .isDirectory
      | e => .other (toString e)

/-- The time since some fixed moment, in seconds. -/
private def now : IO Float := return Float.ofNat (← IO.monoNanosNow) / 1000000000

/-- Collects what is typed. -/
private partial def listen (input : IO.FS.Stream) (typed : IO.Ref (Option Poll)) : IO Unit := do
  let line ← input.getLine
  unless line.isEmpty do
    typed.set (some (Terminal.poll line))
    listen input typed

/-- Shows what a pass left in the journal and the window, and empties both. -/
private def present (e : Emulator Float) : IO (Emulator Float) := do
  for line in e.journal.lines do IO.eprintln line
  if let some frame := e.window.frames.back? then IO.print (Terminal.picture frame)
  return { e with journal := { e.journal with entries := #[] }, window := { e.window with frames := #[] } }

/-- Runs the loop pass by pass, each at the time the system's clock shows. -/
private partial def run (typed : IO.Ref (Option Poll)) (e : Emulator Float) :
    IO (Attempt (Emulator Float) (Option Bool)) := do
  let poll := (← typed.swap none).getD ⟨none, false⟩
  let e := { e with machine := { e.machine with clock := .still (← now) } }
  let (ran, _) := e.run (fun _ => poll) 0 1
  let e ← present ran.state
  match ran.result with
  | .ok none =>
    unless e.machine.clock.slept.isEmpty do IO.sleep 1
    run typed e
  | ended => return ⟨e, ended⟩

private def finish (r : Launch.Report Float) : IO UInt32 := do
  IO.print r.output
  IO.eprint r.errors
  match r.ending with
  | .code n => return n.toUInt32
  | .commandLine .help => return 0
  | .commandLine (.refused _) => return 2
  | .badPath => IO.eprintln PathError.nulMessage; return 1
  | .badRate e => IO.eprintln e.message; return 1
  | .noRate => IO.eprintln Launch.noRateMessage; return 1
  | .unfinished => return 1

end Chip8

open Chip8 in
def main (args : List String) : IO UInt32 := do
  match CommandLine.parse args with
  | .error s => finish (.ofStop s)
  | .ok o =>
    let contents ← readFile o.rom
    let resources : Launch.Resources Float :=
      ⟨fun _ => contents, .still (← now), .seeded (← IO.monoNanosNow)⟩
    match Launch.prepare resources o with
    | .error report => finish report
    | .ok (o, e) =>
      let typed ← IO.mkRef none
      let _ ← IO.asTask (listen (← IO.getStdin) typed) .dedicated
      finish (Launch.conclude o 0 (← run typed (← present e)))
