/-!
# Options

* `Options`: how a machine is hosted, with the values that hold where nothing else is asked for.
-/

namespace Chip8

/-- How a machine is hosted. -/
structure Options where
  /-- Instructions per second; the timers beat at the same rate. -/
  hz : UInt32 := 500
  /-- The size of a pixel in the window. -/
  scale : UInt32 := 10
  /-- Whether to end when the program counter leaves the program. -/
  exitAtEnd : Bool := false
  deriving DecidableEq

end Chip8
