import Chip8.CommandLine
import Chip8.Host.Terminal
import Chip8.Image

/-!
# The command

Runs a program in the terminal: a pass for each line of the standard input, at the rate that the
command line asks for, until the run or the input ends. Frames go to the standard output and the
log to the standard error.
-/

namespace Chip8.Command

/-- The bytes of a file, if it can be read. -/
def readContents (name : String) : IO (Option (List UInt8)) :=
  try
    let bytes ← IO.FS.readBinFile name
    return some bytes.toList
  catch _ =>
    return none

/-- Writes the frames and the log entries that a session has beyond those of an earlier one. -/
def tell (earlier later : Session) : IO Unit := do
  for frame in later.frames.toList.drop earlier.frames.size do
    IO.println frame.screen.text
  for entry in later.log.toList.drop earlier.log.size do
    IO.eprintln entry.line

/-- Plays a pass for each line of the standard input. -/
partial def playLines (options : Options) (session : Session) : IO (Session × Ending) := do
  let line ← (← IO.getStdin).getLine
  if line.isEmpty then
    return (session, .quit)
  let chance ← IO.rand 0 255
  let (next, ending) := session.pass options .reliable (.ofLine line (UInt8.ofNat chance))
  tell session next
  match ending with
  | some ending => return (next, ending)
  | none =>
    IO.sleep (UInt32.ofNat (1000 / max options.hz.toNat 1))
    playLines options next

/-- Runs the program that the settings name, and gives the exit code. -/
def runProgram (settings : Settings) : IO UInt32 := do
  match Image.load settings.rom (← readContents settings.rom) with
  | .error error =>
    IO.eprintln error.message
    return 1
  | .ok image =>
    let report ← match Session.start image settings.options .reliable with
      | .error report => pure report
      | .ok (window, session) => do
        tell { machine := session.machine } session
        let (last, ending) ← playLines settings.options session
        tell last last.close
        pure (last.report window ending)
    match report.result with
    | .ok () => return 0
    | .error error =>
      IO.eprintln error.message
      return 1

end Chip8.Command

/-- Reads the command line and runs the program that it names. -/
def main (arguments : List String) : IO UInt32 :=
  match Chip8.CommandLine.parse arguments with
  | .ok settings => Chip8.Command.runProgram settings
  | .error stop => do
    if stop.isMistake then
      IO.eprintln stop.message
      return 2
    else
      IO.println stop.message
      return 0
