import Chip8.Proofs.Drawing
import Chip8.Proofs.Runs

/-!
# The abstract machine

The machine as a description has it: numbers below a bound, memory as a function, the screen as a
set of points, and the open calls as a list.

* `Abstract.State`, `Abstract.Machine`, `Abstract.Input`: what the machine consists of, and what it
  is given in a step.
* `Abstract.table`, `Abstract.row`: the table of opcodes, by the four digits of a word, and the row
  that a word selects. Its operands are digits, and the numbers that digits make up. A word outside
  the table selects the row that does nothing.
* `Abstract.State.effect`: what the rows do. The program counter already points past the
  instruction, which itself stands at `here`.
* `Abstract.Machine.step`, `Abstract.Machine.takeFrame`, `Abstract.start`: a step, the taking of a
  frame, and the machine that a program starts in.

Sums are sums of natural numbers, and every one that wraps around says so.
-/

namespace Chip8.Abstract

/-- A number below 256. -/
abbrev Byte := Fin 256

/-- A number below 65536. -/
abbrev Word := Fin 65536

/-- Everything that instructions read and change. -/
@[ext]
structure State where
  /-- The registers V0 to VF. -/
  v : Register → Byte
  /-- The index register. -/
  i : Word
  /-- The address of the next instruction. -/
  pc : Word
  /-- The return addresses of the open calls, the newest first. -/
  callers : List Word
  /-- At most sixteen calls are open. -/
  callers_le : callers.length ≤ 16
  /-- The delay timer. -/
  delay : Byte
  /-- The sound timer. -/
  sound : Byte
  /-- The byte at every address. -/
  memory : Address → Byte
  /-- The points of the screen that are lit. -/
  lit : Finset Point
  /-- Whether the screen was drawn on or cleared since it was last taken. -/
  drawn : Bool
  /-- The register that a key is awaited for. -/
  waiting : Option Register

/-- A state, and the fault that ended its run. -/
structure Machine where
  /-- What the instructions read and change. -/
  state : State
  /-- The fault that halted the machine. -/
  fatal : Option Fault

/-- What comes from outside in one step. -/
structure Input where
  /-- Which keys are down. -/
  pressed : Fin 16 → Bool
  /-- A random number. -/
  chance : Byte

/-- The lowest key that is down. -/
def Input.lowest? (input : Input) : Option (Fin 16) :=
  (List.finRange 16).find? input.pressed

/-! ## The table of opcodes -/

/-- The hexadecimal digit of a number that so many digits follow. -/
def digit (number following : Nat) : Fin 16 :=
  Fin.ofNat 16 (number / 16 ^ following)

/-- The number that two digits make up. -/
def twoDigits (y n : Fin 16) : UInt8 :=
  UInt8.ofNat (16 * y.val + n.val)

/-- The number that three digits make up. -/
def threeDigits (x y n : Fin 16) : Address :=
  Fin.ofNat 4096 (256 * x.val + 16 * y.val + n.val)

/-- The row of four digits. -/
def table (first x y n : Fin 16) : Instruction :=
  match first.val, x.val, y.val, n.val with
  | 0x0, 0x0, 0xE, 0x0 => .clear
  | 0x0, 0x0, 0xE, 0xE => .ret
  | 0x1, _, _, _ => .jump (threeDigits x y n)
  | 0x2, _, _, _ => .call (threeDigits x y n)
  | 0x3, _, _, _ => .skip (.isByte x (twoDigits y n))
  | 0x4, _, _, _ => .skip (.isNotByte x (twoDigits y n))
  | 0x5, _, _, 0x0 => .skip (.equal x y)
  | 0x6, _, _, _ => .load x (twoDigits y n)
  | 0x7, _, _, _ => .increase x (twoDigits y n)
  | 0x8, _, _, 0x0 => .combine .copy x y
  | 0x8, _, _, 0x1 => .combine .or x y
  | 0x8, _, _, 0x2 => .combine .and x y
  | 0x8, _, _, 0x3 => .combine .xor x y
  | 0x8, _, _, 0x4 => .combine .add x y
  | 0x8, _, _, 0x5 => .combine .sub x y
  | 0x8, _, _, 0x6 => .combine .shiftRight x y
  | 0x8, _, _, 0x7 => .combine .subFrom x y
  | 0x8, _, _, 0xE => .combine .shiftLeft x y
  | 0x9, _, _, 0x0 => .skip (.different x y)
  | 0xA, _, _, _ => .point (threeDigits x y n)
  | 0xB, _, _, _ => .jumpFrom (threeDigits x y n)
  | 0xC, _, _, _ => .random x (twoDigits y n)
  | 0xD, _, _, _ => .draw x y n
  | 0xE, _, 0x9, 0xE => .skip (.keyDown x)
  | 0xE, _, 0xA, 0x1 => .skip (.keyUp x)
  | 0xF, _, 0x0, 0x7 => .readDelay x
  | 0xF, _, 0x0, 0xA => .awaitKey x
  | 0xF, _, 0x1, 0x5 => .setDelay x
  | 0xF, _, 0x1, 0x8 => .setSound x
  | 0xF, _, 0x1, 0xE => .advance x
  | 0xF, _, 0x2, 0x9 => .pointGlyph x
  | 0xF, _, 0x3, 0x3 => .storeDecimal x
  | 0xF, _, 0x5, 0x5 => .save x
  | 0xF, _, 0x6, 0x5 => .restore x
  | _, _, _, _ => .idle

/-- The row that a word selects. -/
def row (word : Nat) : Instruction :=
  table (digit word 3) (digit word 2) (digit word 1) (digit word 0)

/-! ## What the rows do -/

/-- The result of an operation on two numbers below 256, and the flag, if the operation has one. -/
def arithmetic (a b : Nat) : Arithmetic → Nat × Option Bool
  | .copy => (b, none)
  | .or => (a ||| b, none)
  | .and => (a &&& b, none)
  | .xor => (a ^^^ b, none)
  | .add => ((a + b) % 256, some (decide (255 < a + b)))
  | .sub => ((a + 256 - b) % 256, some (decide (b < a)))
  | .shiftRight => (a / 2, some (decide (a % 2 = 1)))
  | .subFrom => ((b + 256 - a) % 256, some (decide (a < b)))
  | .shiftLeft => (2 * a % 256, some (decide (128 ≤ a)))

namespace State

/-- Puts a number into a register. -/
def put (state : State) (x : Register) (number : Nat) : State :=
  { state with v := Function.update state.v x (Fin.ofNat 256 number) }

/-- Puts a flag into VF. -/
def putFlag (state : State) (flag : Bool) : State :=
  state.put 0xF (if flag then 1 else 0)

/-- Combines two registers into the first, and then sets VF if the operation has a flag. -/
def combine (state : State) (operation : Arithmetic) (x y : Register) : State :=
  match arithmetic (state.v x).val (state.v y).val operation with
  | (result, some flag) => (state.put x result).putFlag flag
  | (result, none) => state.put x result

/-- Whether a condition holds. -/
def holds (state : State) (input : Input) : Condition → Bool
  | .isByte x kk => (state.v x).val == kk.toNat
  | .isNotByte x kk => (state.v x).val != kk.toNat
  | .equal x y => (state.v x).val == (state.v y).val
  | .different x y => (state.v x).val != (state.v y).val
  | .keyDown x => input.pressed (Fin.ofNat 16 (state.v x).val)
  | .keyUp x => !input.pressed (Fin.ofNat 16 (state.v x).val)

/-- The fault of an access that starts at the index register and leaves memory. -/
def outOfBounds (state : State) : Fault :=
  .memoryOutOfBounds (max state.i.val 4096)

/-- The bytes of memory from the index register on, if all of them are there. -/
def fetch (state : State) (count : Nat) : Except Fault (List Byte) :=
  if h : state.i.val + count ≤ 4096 then
    .ok (List.ofFn fun k : Fin count => state.memory ⟨state.i.val + k.val, by omega⟩)
  else
    .error state.outOfBounds

/-- Stores bytes in memory from the index register on, if there is room for all of them. -/
def store (state : State) (data : List Byte) : Except Fault State :=
  if state.i.val + data.length ≤ 4096 then
    .ok { state with
      memory := fun address =>
        if h : state.i.val ≤ address.val ∧ address.val < state.i.val + data.length then
          data[address.val - state.i.val]
        else
          state.memory address }
  else
    .error state.outOfBounds

/-- Toggles a point: a lit one goes dark, and a dark one is lit. -/
def toggle (lit : Finset Point) (point : Point) : Finset Point :=
  symmDiff lit {point}

/-- Toggles the points under a sprite; the flag tells whether a lit one went dark. -/
def draw (state : State) (x y : Register) (sprite : List Byte) : State :=
  let points :=
    Screen.spritePoints (state.v x).val (state.v y).val (sprite.map UInt8.ofFin)
  let lit := points.foldl toggle state.lit
  { state with lit, drawn := true }.putFlag (decide (state.lit \ lit).Nonempty)

/-- What an instruction at `here` does to a state whose program counter points past it. -/
def effect (state : State) (here : Word) (input : Input) : Instruction → Except Fault State
  | .idle => .ok state
  | .clear => .ok { state with lit := ∅, drawn := true }
  | .ret =>
    match state.callers.head? with
    | some pc => .ok { state with
        pc
        callers := state.callers.tail
        callers_le := by
          have := state.callers_le
          rw [List.length_tail]
          omega }
    | none => .error (.stackUnderflow (UInt16.ofFin here))
  | .jump target => .ok { state with pc := Fin.ofNat 65536 target.val }
  | .call target =>
    if h : state.callers.length < 16 then
      .ok { state with
        pc := Fin.ofNat 65536 target.val
        callers := state.pc :: state.callers
        callers_le := h }
    else
      .error (.stackOverflow 16)
  | .skip condition =>
    .ok (if state.holds input condition then
      { state with pc := Fin.ofNat 65536 (state.pc.val + 2) } else state)
  | .load x kk => .ok (state.put x kk.toNat)
  | .increase x kk => .ok (state.put x (((state.v x).val + kk.toNat) % 256))
  | .combine operation x y => .ok (state.combine operation x y)
  | .point target => .ok { state with i := Fin.ofNat 65536 target.val }
  | .jumpFrom target => .ok { state with pc := Fin.ofNat 65536 (target.val + (state.v 0).val) }
  | .random x mask => .ok (state.put x (input.chance.val &&& mask.toNat))
  | .draw x y n => (state.fetch n.val).map (state.draw x y)
  | .readDelay x => .ok (state.put x state.delay.val)
  | .awaitKey x => .ok { state with pc := here, waiting := some x }
  | .setDelay x => .ok { state with delay := state.v x }
  | .setSound x => .ok { state with sound := state.v x }
  | .advance x =>
    .ok { state with i := Fin.ofNat 65536 ((state.i.val + (state.v x).val) % 65536) }
  | .pointGlyph x => .ok { state with i := Fin.ofNat 65536 (0x50 + 5 * (state.v x).val) }
  | .storeDecimal x =>
    let number := (state.v x).val
    state.store
      [Fin.ofNat 256 (number / 100), Fin.ofNat 256 (number / 10 % 10), Fin.ofNat 256 (number % 10)]
  | .save x => state.store ((List.ofFn state.v).take (x.val + 1))
  | .restore x =>
    (state.fetch (x.val + 1)).map fun data =>
      { state with
        v := fun y => if h : y.val < data.length then data[y.val] else state.v y }

/-! ## Steps -/

/-- The word at the program counter, its more significant byte first. -/
def word (state : State) : Except Fault UInt16 :=
  if h : state.pc.val + 1 < 4096 then
    .ok (UInt16.ofNat
      (256 * (state.memory ⟨state.pc.val, by omega⟩).val +
        (state.memory ⟨state.pc.val + 1, h⟩).val))
  else
    .error (.memoryOutOfBounds (max state.pc.val 4096))

/-- The state with the program counter past the instruction it points at. -/
def advanced (state : State) : State :=
  { state with pc := Fin.ofNat 65536 (state.pc.val + 2) }

/-- Fetches the word at the program counter and does what its row says. -/
def next (state : State) (input : Input) : Except Fault State :=
  match state.word with
  | .ok word => state.advanced.effect state.pc input (row word.toNat)
  | .error fault => .error fault

/-- Both timers one beat later; a timer stops at zero. -/
def tick (state : State) : State :=
  { state with
    delay := Fin.ofNat 256 (state.delay.val - 1)
    sound := Fin.ofNat 256 (state.sound.val - 1) }

/-- One look at the keys while register `x` waits: the lowest key that is down goes into the
register and ends the wait. -/
def poll (state : State) (x : Register) (input : Input) : State :=
  match input.lowest? with
  | some key => { (state.put x key.val).advanced with waiting := none }
  | none => state

end State

namespace Machine

/-- One step: the result, and the machine after it. -/
def step (machine : Machine) (input : Input) : Except Fault Unit × Machine :=
  match machine.fatal, machine.state.waiting with
  | some fault, _ => (.error fault, machine)
  | none, some x => (.ok (), { machine with state := machine.state.poll x input })
  | none, none =>
    match machine.state.next input with
    | .ok state => (.ok (), { machine with state := state.tick })
    | .error fault => (.error fault, { machine with fatal := some fault })

/-- The lit points, if the screen was drawn on or cleared since it was last taken, and the machine
after taking them. -/
def takeFrame (machine : Machine) : Option (Finset Point) × Machine :=
  (if machine.state.drawn then some machine.state.lit else none,
    { machine with state := { machine.state with drawn := false } })

end Machine

/-- The machine that a program starts in. -/
def start (image : List UInt8) : Machine where
  state := {
    v := fun _ => 0
    i := 0
    pc := 0x200
    callers := []
    callers_le := by decide
    delay := 0
    sound := 0
    memory := fun address =>
      if 0x200 ≤ address.val then (image.getD (address.val - 0x200) 0).toFin
      else if 0x50 ≤ address.val then (Font.sheet.getD (address.val - 0x50) 0).toFin
      else 0
    lit := ∅
    drawn := false
    waiting := none }
  fatal := none

end Chip8.Abstract
