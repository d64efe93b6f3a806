/-!
# Hexadecimal numbers and addresses

How a number is written where a message names a place in memory.

* `Hexadecimal.digits n`: the shortest upper-case hexadecimal spelling of `n`.
* `Hexadecimal.padded width n`: the same, with zeros in front up to `width` digits.
* `Hexadecimal.address n`: an address as messages show it, `0x` and at least four digits.
-/

namespace Chip8.Hexadecimal

/-- The upper-case hexadecimal digits of `n`, most significant first and without leading zeros;
zero is the single digit `0`. -/
def digits (n : Nat) : List Char :=
  (Nat.toDigits 16 n).map Char.toUpper

/-- The digits of `n`, with zeros in front when there are fewer than `width`. -/
def padded (width n : Nat) : List Char :=
  List.replicate (width - (digits n).length) '0' ++ digits n

/-- An address in a message: `0x` and at least four digits, more when the number needs them. -/
def address (n : Nat) : String :=
  "0x" ++ String.ofList (padded 4 n)

/-- Padding reaches its width and never cuts a digit off. -/
theorem length_padded (width n : Nat) :
    (padded width n).length = max width (digits n).length := by
  rw [padded, List.length_append, List.length_replicate]
  omega

end Chip8.Hexadecimal
