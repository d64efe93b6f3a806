import Chip8.Opcode

/-!
# Instructions

What an opcode asks for, with its operands.

* `Arithmetic`: the operations on two registers, as functions of their values.
* `Condition`: what a skip depends on.
* `Instruction`: everything an opcode can mean.
* `Instruction.decode`: the meaning of an opcode. An opcode outside the table is `idle`.
-/

namespace Chip8

/-- An operation that combines the values of two registers into the first. -/
inductive Arithmetic
  /-- The second value. -/
  | copy
  /-- The bits of either value. -/
  | or
  /-- The bits that both values have. -/
  | and
  /-- The bits of exactly one value. -/
  | xor
  /-- The sum. -/
  | add
  /-- The first value less the second. -/
  | sub
  /-- Half the first value. -/
  | shiftRight
  /-- The second value less the first. -/
  | subFrom
  /-- Twice the first value. -/
  | shiftLeft
  deriving DecidableEq

namespace Arithmetic

/-- The new value of the first register, from the values of both; what exceeds a byte is lost. -/
def result (a b : UInt8) : Arithmetic → UInt8
  | copy => b
  | or => a ||| b
  | and => a &&& b
  | xor => a ^^^ b
  | add => a + b
  | sub => a - b
  | shiftRight => a >>> 1
  | subFrom => b - a
  | shiftLeft => a <<< 1

/-- The flag that goes into VF: a carry, the absence of a borrow from an unequal number, or the bit
shifted out. The logical operations and the copy leave VF alone. -/
def flag? (a b : UInt8) : Arithmetic → Option Bool
  | copy | or | and | xor => none
  | add => some (decide (255 < a.toNat + b.toNat))
  | sub => some (decide (b < a))
  | shiftRight => some (decide (a.toNat % 2 = 1))
  | subFrom => some (decide (a < b))
  | shiftLeft => some (decide (128 ≤ a.toNat))

/-- The operation that the last digit of an opcode selects. -/
def ofDigit? (digit : Fin 16) : Option Arithmetic :=
  match digit.val with
  | 0x0 => some copy
  | 0x1 => some or
  | 0x2 => some and
  | 0x3 => some xor
  | 0x4 => some add
  | 0x5 => some sub
  | 0x6 => some shiftRight
  | 0x7 => some subFrom
  | 0xE => some shiftLeft
  | _ => none

end Arithmetic

/-- What a skip depends on. -/
inductive Condition
  /-- A register holds the byte. -/
  | isByte (x : Register) (kk : UInt8)
  /-- A register does not hold the byte. -/
  | isNotByte (x : Register) (kk : UInt8)
  /-- Two registers are equal. -/
  | equal (x y : Register)
  /-- Two registers differ. -/
  | different (x y : Register)
  /-- The key named by the low half of a register is down. -/
  | keyDown (x : Register)
  /-- The key named by the low half of a register is up. -/
  | keyUp (x : Register)
  deriving DecidableEq

/-- What an opcode asks for. -/
inductive Instruction
  /-- Nothing. -/
  | idle
  /-- Make every pixel dark. -/
  | clear
  /-- Go back to the newest return address. -/
  | ret
  /-- Go to an address. -/
  | jump (target : Address)
  /-- Go to an address, to return here. -/
  | call (target : Address)
  /-- Leave out the next instruction if the condition holds. -/
  | skip (condition : Condition)
  /-- Put a byte into a register. -/
  | load (x : Register) (kk : UInt8)
  /-- Add a byte to a register. -/
  | increase (x : Register) (kk : UInt8)
  /-- Combine two registers into the first. -/
  | combine (operation : Arithmetic) (x y : Register)
  /-- Put an address into the index register. -/
  | point (target : Address)
  /-- Go to an address increased by V0. -/
  | jumpFrom (target : Address)
  /-- Put a random byte into a register, limited to the bits of a mask. -/
  | random (x : Register) (mask : UInt8)
  /-- Draw the sprite of `n` rows at the index register, with its corner at two registers. -/
  | draw (x y : Register) (n : Fin 16)
  /-- Put the delay timer into a register. -/
  | readDelay (x : Register)
  /-- Wait for a key and put it into a register. -/
  | awaitKey (x : Register)
  /-- Set the delay timer from a register. -/
  | setDelay (x : Register)
  /-- Set the sound timer from a register. -/
  | setSound (x : Register)
  /-- Add a register to the index register. -/
  | advance (x : Register)
  /-- Point the index register at the glyph of a register's digit. -/
  | pointGlyph (x : Register)
  /-- Store the three decimal digits of a register at the index register. -/
  | storeDecimal (x : Register)
  /-- Save V0 to a register at the index register. -/
  | save (x : Register)
  /-- Restore V0 to a register from the index register. -/
  | restore (x : Register)
  deriving DecidableEq

namespace Instruction

/-- The instructions of family E, selected by their last two digits. -/
def decodeKeys (op : Opcode) : Instruction :=
  match op.kk.toNat with
  | 0x9E => .skip (.keyDown op.x)
  | 0xA1 => .skip (.keyUp op.x)
  | _ => .idle

/-- The instructions of family F, selected by their last two digits. -/
def decodeSingle (op : Opcode) : Instruction :=
  match op.kk.toNat with
  | 0x07 => .readDelay op.x
  | 0x0A => .awaitKey op.x
  | 0x15 => .setDelay op.x
  | 0x18 => .setSound op.x
  | 0x1E => .advance op.x
  | 0x29 => .pointGlyph op.x
  | 0x33 => .storeDecimal op.x
  | 0x55 => .save op.x
  | 0x65 => .restore op.x
  | _ => .idle

/-- The instruction of an opcode. -/
def decode (op : Opcode) : Instruction :=
  match op.family.val with
  | 0x0 => if op.word = 0x00E0 then .clear else if op.word = 0x00EE then .ret else .idle
  | 0x1 => .jump op.nnn
  | 0x2 => .call op.nnn
  | 0x3 => .skip (.isByte op.x op.kk)
  | 0x4 => .skip (.isNotByte op.x op.kk)
  | 0x5 => if op.n = 0 then .skip (.equal op.x op.y) else .idle
  | 0x6 => .load op.x op.kk
  | 0x7 => .increase op.x op.kk
  | 0x8 =>
    match Arithmetic.ofDigit? op.n with
    | some operation => .combine operation op.x op.y
    | none => .idle
  | 0x9 => if op.n = 0 then .skip (.different op.x op.y) else .idle
  | 0xA => .point op.nnn
  | 0xB => .jumpFrom op.nnn
  | 0xC => .random op.x op.kk
  | 0xD => .draw op.x op.y op.n
  | 0xE => decodeKeys op
  | 0xF => decodeSingle op
  | _ => .idle

end Instruction

end Chip8
