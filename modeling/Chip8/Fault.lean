import Chip8.Hexadecimal

/-!
# Faults

The ways in which a program or its image can be at fault.

* `Fault`: the causes. `outOfSpace` rejects an image before anything runs; the other three stop a
  running machine for good.
* `Fault.message`: the wording of each cause.

An opcode that means nothing is not a fault: it executes without any effect.
-/

namespace Chip8

/-- Why an image is rejected or a machine halts. -/
inductive Fault
  /-- An image of `size` bytes is empty or exceeds the `max` bytes available. -/
  | outOfSpace (size max : Nat)
  /-- A call was made while `capacity` calls were open. -/
  | stackOverflow (capacity : Nat)
  /-- The instruction at `pc` returned while no call was open. -/
  | stackUnderflow (pc : UInt16)
  /-- An access reached outside memory, first at `address`. -/
  | memoryOutOfBounds (address : Nat)
  deriving DecidableEq

/-- The sentence that reports a fault. -/
def Fault.message : Fault → String
  | .outOfSpace size max =>
    s!"program of {size} bytes does not fit in the {max} bytes available"
  | .stackOverflow capacity =>
    s!"stack overflow: more than {capacity} nested subroutine calls"
  | .stackUnderflow pc =>
    "stack underflow: return at " ++ Hexadecimal.address pc.toNat
      ++ " with no subroutine to return from"
  | .memoryOutOfBounds address =>
    "memory access out of bounds at address " ++ Hexadecimal.address address

end Chip8
