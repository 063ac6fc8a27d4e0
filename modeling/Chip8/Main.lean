import Chip8.CommandLine
import Chip8.Console.Frame
import Chip8.Console.KeyLayout
import Chip8.Display.Picture

/-!
# Playing in a terminal

Plays a program frame by frame. Each line of standard input is one frame: the keys named on it go
down when the frame begins and up when the next one does. A picture is printed after every frame
that leaves the last one stale. Playing ends with the input, or when the console stops.
-/

open Chip8

/-- A key for the random source, from the entropy of the system. -/
def entropyKey : IO ChaCha.Key := do
  let bytes ← IO.getRandomBytes 32
  let byte (i : Nat) : UInt32 := ((bytes.toList.getD i 0).toUInt32)
  return Vector.ofFn fun i =>
    byte (4 * i) + byte (4 * i + 1) * 0x100 + byte (4 * i + 2) * 0x10000 +
      byte (4 * i + 3) * 0x1000000

/-- Reads a program from a file. -/
def readProgram (path : String) : IO (Except LoadError Program) := do
  try
    let bytes ← IO.FS.readBinFile path
    return Program.ofSource ⟨bytes.toList.toArray, none⟩
  catch failure =>
    return Program.ofSource ⟨#[], some (toString failure)⟩

/-- Plays one frame for each line of input. -/
partial def play (input : IO.FS.Stream) (console : Console) (sounding : Bool) : IO Unit := do
  let line ← input.getLine
  if line.isEmpty then
    return
  let keys := line.toList.filterMap KeyLayout.code?
  let frame := (keys.foldl (fun console key => console.enqueue (.down key)) console).frame
  for text in Log.lines .warn frame.log do
    IO.eprintln text
  let (stale, machine) := frame.console.machine.takeStale
  if stale then
    for row in machine.display.plane.picture console.settings.magnification do
      IO.println row
  if frame.summary.sounding != sounding then
    IO.eprintln (if frame.summary.sounding then "sound on" else "sound off")
  match frame.console.fault with
  | some fault => IO.eprintln ("machine halted: " ++ fault.message)
  | none =>
    let console := { frame.console with machine }
    play input (keys.foldl (fun console key => console.enqueue (.up key)) console)
      frame.summary.sounding

def main (arguments : List String) : IO UInt32 := do
  match CommandLine.parse arguments with
  | .error problem =>
    IO.eprintln problem.message
    return 2
  | .ok request =>
    match ← readProgram request.image with
    | .error problem =>
      IO.eprintln problem.message
      return 1
    | .ok program =>
      play (← IO.getStdin) (Console.ofProgram request.settings (← entropyKey) program) false
      return 0
