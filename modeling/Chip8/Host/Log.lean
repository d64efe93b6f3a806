import Chip8.Fault

/-!
# The log of a run

* `LogEntry`: what a host records.
* `LogEntry.line`: an entry as it is written, its level before its text.
-/

namespace Chip8

/-- What a host records. -/
inductive LogEntry
  /-- The instruction at `pc` commits a fault. -/
  | halting (pc : UInt16) (fault : Fault)
  /-- The machine is halted. -/
  | machineHalted (fault : Fault)
  /-- The program counter left the program. -/
  | endOfProgram (pc : UInt16)
  /-- The run ends on a halted machine. -/
  | exitedHalted (fault : Fault)
  deriving DecidableEq

namespace LogEntry

/-- How serious an entry is. -/
def level : LogEntry → String
  | halting _ _ | machineHalted _ => "ERROR"
  | endOfProgram _ => "INFO"
  | exitedHalted _ => "WARN"

/-- What an entry says. -/
def text : LogEntry → String
  | halting pc fault => "halting at " ++ Hexadecimal.address pc.toNat ++ ": " ++ fault.message
  | machineHalted fault => "machine halted: " ++ fault.message
  | endOfProgram pc => "end of program reached at " ++ Hexadecimal.address pc.toNat
  | exitedHalted fault => "exited with the machine halted: " ++ fault.message

/-- An entry as it is written. -/
def line (entry : LogEntry) : String :=
  entry.level ++ " " ++ entry.text

end LogEntry

end Chip8
