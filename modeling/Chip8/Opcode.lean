/-!
# Opcodes

An opcode is the 16-bit word of one instruction. Its four hexadecimal digits are its family, and
then operands that overlap:

    F x y n     the family, two registers and a small number
    F x k k     a byte in place of the last two digits
    F n n n     an address in place of the last three
-/

namespace Chip8

/-- One of the registers V0 to VF. -/
abbrev Register := Fin 16

/-- There are registers, so that a literal can name one. -/
theorem Register.neZero : @NeZero Nat Zero.ofOfNat0 16 := ⟨by decide⟩

attribute [instance] Register.neZero

/-- An address of memory, as three hexadecimal digits name it. -/
abbrev Address := Fin 0x1000

/-- An address as the program counter and the index register hold it. -/
def Address.toWord (address : Address) : UInt16 :=
  UInt16.ofNat address.val

/-- An address keeps its value in a register. -/
theorem Address.toNat_toWord (address : Address) : address.toWord.toNat = address.val :=
  UInt16.toNat_ofNat_of_lt (by have := address.isLt; simp only [UInt16.size]; omega)

/-- The word of one instruction. -/
structure Opcode where
  /-- The word itself. -/
  word : UInt16
  deriving DecidableEq

namespace Opcode

/-- The first digit, which tells the kind of instruction. -/
def family (op : Opcode) : Fin 16 :=
  ⟨op.word.toNat / 0x1000, by have := op.word.toNat_lt; omega⟩

/-- The second digit, most often a register. -/
def x (op : Opcode) : Register :=
  ⟨op.word.toNat / 0x100 % 0x10, Nat.mod_lt _ (by decide)⟩

/-- The third digit, most often a register. -/
def y (op : Opcode) : Register :=
  ⟨op.word.toNat / 0x10 % 0x10, Nat.mod_lt _ (by decide)⟩

/-- The last digit. -/
def n (op : Opcode) : Fin 16 :=
  ⟨op.word.toNat % 0x10, Nat.mod_lt _ (by decide)⟩

/-- The last two digits, a byte. -/
def kk (op : Opcode) : UInt8 :=
  UInt8.ofNat (op.word.toNat % 0x100)

/-- The last three digits, an address. -/
def nnn (op : Opcode) : Address :=
  ⟨op.word.toNat % 0x1000, Nat.mod_lt _ (by decide)⟩

end Opcode

end Chip8
