import Chip8.Instruction
import Chip8.State

/-!
# Execution

What each instruction does to a state.

* `Condition.holds`: whether a skip takes place.
* `Instruction.execute`: the state after an instruction, or the fault it commits. The program
  counter already points past the instruction, so a jump assigns it, a skip adds two, and a wait
  for a key winds it back.
* `State.executeNext`: fetches the instruction at the program counter and executes it.

An instruction that sets VF as a flag does so last, so that the flag prevails when VF is also its
result register.
-/

namespace Chip8

/-- What comes from outside in one step: the keys, and a random byte. -/
structure Input where
  /-- The keys. -/
  keyboard : Keyboard
  /-- The random byte of this step. -/
  chance : UInt8 := 0

/-- The three decimal digits of a byte, the hundreds first. -/
def decimalDigits (byte : UInt8) : List UInt8 :=
  [byte / 100, byte / 10 % 10, byte % 10]

/-- Whether a condition holds in a state. -/
def Condition.holds (state : State) (keyboard : Keyboard) : Condition → Bool
  | isByte x kk => state.v.get x == kk
  | isNotByte x kk => state.v.get x != kk
  | equal x y => state.v.get x == state.v.get y
  | different x y => state.v.get x != state.v.get y
  | keyDown x => keyboard.isPressed (state.v.get x &&& 0xF)
  | keyUp x => !keyboard.isPressed (state.v.get x &&& 0xF)

namespace State

/-- Combines two registers into the first, and then sets VF if the operation has a flag. -/
def combine (state : State) (operation : Arithmetic) (x y : Register) : State :=
  let a := state.v.get x
  let b := state.v.get y
  let v := state.v.put x (operation.result a b)
  match operation.flag? a b with
  | none => { state with v }
  | some flag => { state with v := v.put 0xF flag.toUInt8 }

/-- Draws a sprite with its corner at two registers; VF tells whether a lit pixel was hit. -/
def drawSprite (state : State) (x y : Register) (sprite : List UInt8) : State :=
  let (screen, hit) := state.screen.draw (state.v.get x).toNat (state.v.get y).toNat sprite
  { state with screen, redraw := true, v := state.v.put 0xF hit.toUInt8 }

/-- Writes bytes to memory from the index register on. -/
def storeBytes (state : State) (data : List UInt8) : Except Fault State :=
  (state.memory.write state.i data).map fun memory => { state with memory }

end State

namespace Instruction

/-- The state after an instruction whose successor the program counter points at, or the fault
that the instruction commits. -/
def execute (state : State) (input : Input) : Instruction → Except Fault State
  | idle => .ok state
  | clear => .ok { state with screen := .blank, redraw := true }
  | ret =>
    match state.stack.pop? with
    | some (pc, stack) => .ok { state with pc, stack }
    | none => .error (.stackUnderflow (state.pc - 2))
  | jump target => .ok { state with pc := target.toWord }
  | call target =>
    (state.stack.push state.pc).map fun stack =>
      { state with pc := target.toWord, stack }
  | skip condition =>
    .ok (if condition.holds state input.keyboard then { state with pc := state.pc + 2 } else state)
  | load x kk => .ok { state with v := state.v.put x kk }
  | increase x kk => .ok { state with v := state.v.put x (state.v.get x + kk) }
  | combine operation x y => .ok (state.combine operation x y)
  | point target => .ok { state with i := target.toWord }
  | jumpFrom target => .ok { state with pc := (state.v.get 0).toUInt16 + target.toWord }
  | random x mask => .ok { state with v := state.v.put x (input.chance &&& mask) }
  | draw x y n => (state.memory.read state.i n.val).map (state.drawSprite x y)
  | readDelay x => .ok { state with v := state.v.put x state.delay }
  | awaitKey x => .ok { state with pc := state.pc - 2, awaiting := some x }
  | setDelay x => .ok { state with delay := state.v.get x }
  | setSound x => .ok { state with sound := state.v.get x }
  | advance x => .ok { state with i := state.i + (state.v.get x).toUInt16 }
  | pointGlyph x => .ok { state with i := Font.address (state.v.get x) }
  | storeDecimal x => state.storeBytes (decimalDigits (state.v.get x))
  | save x => state.storeBytes (state.v.toList.take (x.val + 1))
  | restore x =>
    (state.memory.read state.i (x.val + 1)).map fun data =>
      { state with v := Block.overwrite state.v 0 data }

end Instruction

/-- Fetches the instruction at the program counter, moves the counter past it and executes it. -/
def State.executeNext (state : State) (input : Input) : Except Fault State := do
  let word ← state.memory.word state.pc
  (Instruction.decode ⟨word⟩).execute { state with pc := state.pc + 2 } input

end Chip8
