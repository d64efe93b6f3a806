import Chip8.Block
import Chip8.Fault
import Chip8.Font

/-!
# Memory

4096 bytes of flat memory. The font lies at `0x050`, a program from `0x200` on, and the rest
starts as zero.

* `Memory.initial`: zeros and the font.
* `Memory.read`, `Memory.byte`, `Memory.word`, `Memory.write`: checked access. An access that
  leaves memory is refused as a whole, with the first address that is not in memory or, for an
  access that begins outside, with the address where it begins.
* `Memory.read?`: a read of any length that 64 bits can hold. The bounds check adds the length to
  the start in 64 bits and does not look for an overflow, so that there are lengths for which a read
  is not refused but breaks off, as checked arithmetic does.

Addresses are 16-bit numbers, as the registers that hold them are. What an instruction reads ends
far below `2 ^ 64`, where `read?` and `read` are the same, and so does every list of bytes that
there is room for; `read` and `write` therefore compute the end of an access as a natural number.
-/

namespace Chip8

/-- The contents of memory. -/
structure Memory where
  /-- The bytes, in the order of their addresses. -/
  bytes : Block 4096
  deriving DecidableEq

namespace Memory

/-- The number of bytes of memory. -/
abbrev size : Nat := 4096

/-- Where a program is placed and where execution begins. -/
abbrev programStart : Nat := 0x200

/-- The size of the largest program. -/
abbrev programCapacity : Nat := size - programStart

/-- Memory without a program: zeros, and the font in its place. -/
def initial : Memory where
  bytes := Block.overwrite (Vector.replicate size 0) Font.start Font.sheet

instance : Inhabited Memory := ⟨initial⟩

/-- The fault of an access that begins at `start` and leaves memory. -/
def outOfBounds (start : UInt16) : Fault :=
  .memoryOutOfBounds (max start.toNat 4096)

/-- The `count` bytes from `start` on, for an access that ends below `2 ^ 64`. -/
def read (memory : Memory) (start : UInt16) (count : Nat) : Except Fault (List UInt8) :=
  match memory.bytes.read? start.toNat count with
  | some data => .ok data
  | none => .error (outOfBounds start)

/-- The `count` bytes from `start` on, for every length of 64 bits. Where the end of the access does
not fit into 64 bits, the sum that computes it overflows, and there is neither data nor refusal. -/
def read? (memory : Memory) (start : UInt16) (count : UInt64) :
    Option (Except Fault (List UInt8)) :=
  if start.toNat + count.toNat < UInt64.size then some (memory.read start count.toNat) else none

/-- The byte at an address. -/
def byte (memory : Memory) (start : UInt16) : Except Fault UInt8 :=
  if h : start.toNat < 4096 then
    .ok memory.bytes[start.toNat]
  else
    .error (outOfBounds start)

/-- The two bytes from `start` on as one number, the more significant byte first. -/
def word (memory : Memory) (start : UInt16) : Except Fault UInt16 :=
  if h : start.toNat + 1 < 4096 then
    .ok (UInt16.ofNat
      (256 * memory.bytes[start.toNat].toNat + memory.bytes[start.toNat + 1].toNat))
  else
    .error (outOfBounds start)

/-- Memory with `data` in place from `start` on. -/
def write (memory : Memory) (start : UInt16) (data : List UInt8) : Except Fault Memory :=
  match memory.bytes.write? start.toNat data with
  | some bytes => .ok { bytes }
  | none => .error (outOfBounds start)

/-- Without a program a byte of memory is one of the font or zero. -/
theorem getElem_initial {address : Nat} (h : address < 4096) :
    initial.bytes[address] =
      if 0x50 ≤ address then Font.sheet.getD (address - 0x50) 0 else 0 := by
  refine (Block.getElem_overwrite_eq_getD _ _ _ h).trans ?_
  rw [Vector.getElem_replicate]

/-! ## When an access is refused -/

/-- A read inside memory gives the bytes at its addresses. -/
theorem read_of_le (memory : Memory) {start : UInt16} {count : Nat}
    (h : start.toNat + count ≤ 4096) :
    memory.read start count =
      .ok (List.ofFn fun k : Fin count => memory.bytes[start.toNat + k]) := by
  rw [read, Block.read?_of_le _ h]

/-- A read that leaves memory is refused. -/
theorem read_of_lt (memory : Memory) {start : UInt16} {count : Nat}
    (h : 4096 < start.toNat + count) : memory.read start count = .error (outOfBounds start) := by
  rw [read, Block.read?_of_lt _ h]

/-- A read that ends below `2 ^ 64` is carried out. -/
theorem read?_of_lt (memory : Memory) {start : UInt16} {count : UInt64}
    (h : start.toNat + count.toNat < UInt64.size) :
    memory.read? start count = some (memory.read start count.toNat) :=
  if_pos h

/-- A read of no more bytes than memory has is carried out, wherever it begins. -/
theorem read?_of_count_le (memory : Memory) (start : UInt16) {count : UInt64}
    (h : count.toNat ≤ 4096) :
    memory.read? start count = some (memory.read start count.toNat) := by
  have hstart := start.toNat_lt
  have hsize : UInt64.size = 18446744073709551616 := rfl
  exact memory.read?_of_lt (by omega)

/-- A read that leaves memory is refused, unless its end overflows. -/
theorem read?_eq_error (memory : Memory) {start : UInt16} {count : UInt64}
    (hover : 4096 < start.toNat + count.toNat) (hends : start.toNat + count.toNat < UInt64.size) :
    memory.read? start count = some (.error (outOfBounds start)) := by
  rw [memory.read?_of_lt hends, memory.read_of_lt hover]

/-- A read whose end overflows breaks off. -/
theorem read?_of_le (memory : Memory) {start : UInt16} {count : UInt64}
    (h : UInt64.size ≤ start.toNat + count.toNat) : memory.read? start count = none :=
  if_neg (Nat.not_lt_of_le h)

/-- A write inside memory takes place. -/
theorem write_of_le (memory : Memory) {start : UInt16} {data : List UInt8}
    (h : start.toNat + data.length ≤ 4096) :
    memory.write start data = .ok { bytes := memory.bytes.overwrite start.toNat data } := by
  rw [write, Block.write?, if_pos h]

/-- A write that leaves memory is refused. -/
theorem write_of_lt (memory : Memory) {start : UInt16} {data : List UInt8}
    (h : 4096 < start.toNat + data.length) :
    memory.write start data = .error (outOfBounds start) := by
  rw [write, Block.write?, if_neg (by omega)]

end Memory

end Chip8
