import Chip8.Execution

/-!
# Machines

A machine runs a program one step at a time.

* `Machine.load`: a machine with an image in memory.
* `Machine.step`: one instruction, or one look at the keys while a wait is on. A fault leaves the
  state as it was before the instruction and halts the machine: every later step returns the same
  fault and changes nothing.
* `Machine.takeFrame`: the screen, if it was drawn on or cleared since it was last taken.
* `Machine.status`, `Machine.soundActive`, `Machine.pcInProgram`: what a host may ask.
-/

namespace Chip8

/-- A machine and the program it runs. -/
structure Machine where
  /-- What the instructions read and change. -/
  state : State
  /-- The size of the program. -/
  programSize : Nat
  /-- The fault that halted the machine. -/
  halted : Option Fault := none

/-- What a machine does in its next step. -/
inductive Status
  /-- It executes an instruction. -/
  | running
  /-- It looks for a key to put into a register. -/
  | awaitingKey (x : Register)
  /-- It returns the fault that halted it. -/
  | halted (fault : Fault)
  deriving DecidableEq

namespace Machine

/-- A machine with the image placed at the start of program memory; an image that is empty or too
large is rejected. -/
def load (image : List UInt8) : Except Fault Machine :=
  if image = [] ∨ Memory.programCapacity < image.length then
    .error (.outOfSpace image.length Memory.programCapacity)
  else
    (Memory.initial.write 0x200 image).map fun memory =>
      { state := { memory }, programSize := image.length }

/-- One step: the result, and the machine after it. -/
def step (machine : Machine) (input : Input) : Except Fault Unit × Machine :=
  match machine.halted with
  | some fault => (.error fault, machine)
  | none =>
    match machine.state.awaiting with
    | some x => (.ok (), { machine with state := machine.state.poll x input.keyboard })
    | none =>
      match machine.state.executeNext input with
      | .ok state => (.ok (), { machine with state := state.tick })
      | .error fault => (.error fault, { machine with halted := some fault })

/-- The screen, if it was drawn on or cleared since it was last taken, and the machine after
taking it. -/
def takeFrame (machine : Machine) : Option Screen × Machine :=
  if machine.state.redraw then
    (some machine.state.screen, { machine with state := { machine.state with redraw := false } })
  else
    (none, machine)

/-- What the machine does in its next step. -/
def status (machine : Machine) : Status :=
  match machine.halted, machine.state.awaiting with
  | some fault, _ => .halted fault
  | none, some x => .awaitingKey x
  | none, none => .running

/-- Whether a fault halted the machine. -/
def isHalted (machine : Machine) : Bool :=
  machine.halted.isSome

/-- Whether a key is awaited. -/
def isAwaitingKey (machine : Machine) : Bool :=
  machine.state.awaiting.isSome

/-- Whether a tone sounds. -/
def soundActive (machine : Machine) : Bool :=
  decide (0 < machine.state.sound)

/-- Whether the program counter points into the program. -/
def pcInProgram (machine : Machine) : Bool :=
  decide (Memory.programStart ≤ machine.state.pc.toNat
    ∧ machine.state.pc.toNat < Memory.programStart + machine.programSize)

/-! ## Steps by status -/

/-- A halted machine returns its fault and stays as it is. -/
theorem step_of_halted {machine : Machine} {fault : Fault} (h : machine.halted = some fault)
    (input : Input) : machine.step input = (.error fault, machine) := by
  rw [step, h]

/-- A machine that awaits a key looks at the keys. -/
theorem step_of_awaiting {machine : Machine} {x : Register} (hrun : machine.halted = none)
    (h : machine.state.awaiting = some x) (input : Input) :
    machine.step input =
      (.ok (), { machine with state := machine.state.poll x input.keyboard }) := by
  rw [step, hrun, h]

/-- A running machine whose instruction succeeds moves on, and the timers beat. -/
theorem step_of_ok {machine : Machine} {input : Input} {state : State}
    (hrun : machine.halted = none) (hwait : machine.state.awaiting = none)
    (h : machine.state.executeNext input = .ok state) :
    machine.step input = (.ok (), { machine with state := state.tick }) := by
  rw [step, hrun, hwait, h]

/-- A running machine whose instruction fails halts. -/
theorem step_of_error {machine : Machine} {input : Input} {fault : Fault}
    (hrun : machine.halted = none) (hwait : machine.state.awaiting = none)
    (h : machine.state.executeNext input = .error fault) :
    machine.step input = (.error fault, { machine with halted := some fault }) := by
  rw [step, hrun, hwait, h]

end Machine

end Chip8
