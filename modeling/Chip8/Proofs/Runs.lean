import Chip8.Machine
import Chip8.Proofs.Effects

/-!
# Runs

A host steps a machine and takes frames from it, in any order.

* `Keyboard.PicksLowest`: the keyboards that end a wait with the lowest key that is down.
* `Action`: a step with its input, or a frame being taken; `Answer`: what the machine returns.
* `Machine.run`, `Machine.answers`: a list of actions performed in order.
* `Machine.Reachable`: a machine that some run leads to from a loaded program.
* `Machine.Transition`: the four ways in which a step can end, and `transition` that it ends in
  one of them.
* `Machine.history`: the instructions that a run executes, each with the state it was fetched in.

A statement about runs is an induction on the list of actions, whose step is a statement about
`Machine.act`; a statement about every reachable machine is an induction on `Reachable`.
-/

namespace Chip8

/-- A keyboard that ends a wait with the lowest key that is down, as keyboards do unless they choose
otherwise. -/
def Keyboard.PicksLowest (keyboard : Keyboard) : Prop :=
  keyboard.pressedKey = Keyboard.lowest keyboard.isPressed

/-- A keypad ends a wait with the lowest key that is down. -/
theorem Keypad.picksLowest_keyboard (keypad : Keypad) : keypad.keyboard.PicksLowest :=
  rfl

/-- What a host does to a machine. -/
inductive Action
  /-- One step of the machine. -/
  | step (input : Input)
  /-- Taking the screen, if it is due. -/
  | takeFrame

/-- Whether an action takes the screen, if it is due. -/
def Action.takesFrame : Action → Bool
  | .step _ => false
  | .takeFrame => true

/-- What a machine returns, with pictures as the host sees them. -/
inductive Answer (picture : Type)
  /-- The result of a step. -/
  | stepped (result : Except Fault Unit)
  /-- The picture taken, if it was due. -/
  | frame (taken : Option picture)

/-- An answer with its picture seen differently. -/
def Answer.map {α β : Type} (f : α → β) : Answer α → Answer β
  | .stepped result => .stepped result
  | .frame taken => .frame (taken.map f)

/-- The picture that an answer hands over, if it does. -/
def Answer.picture? {picture : Type} : Answer picture → Option picture
  | .stepped _ => none
  | .frame taken => taken

/-- An instruction that was executed: the state it was fetched in, and its opcode. -/
structure Executed where
  /-- The state, with the program counter at the instruction. -/
  before : State
  /-- The opcode. -/
  op : Opcode

/-- The state with its program counter past the instruction that was fetched. -/
def State.advanced (state : State) : State :=
  { state with pc := state.pc + 2 }

@[simp] theorem State.advanced_pc (state : State) : state.advanced.pc = state.pc + 2 := rfl

@[simp] theorem State.advanced_stack (state : State) : state.advanced.stack = state.stack := rfl

namespace State

/-- The next instruction succeeds exactly when its word is fetched and it is executed. -/
theorem executeNext_eq_ok_iff {state after : State} {input : Input} :
    state.executeNext input = .ok after ↔
      ∃ word, state.memory.word state.pc = .ok word ∧
        (Instruction.decode ⟨word⟩).execute state.advanced input = .ok after := by
  unfold executeNext
  cases state.memory.word state.pc with
  | error _ => simp [bind, Except.bind]
  | ok word => simp [bind, Except.bind, advanced]

/-- The next instruction fails when its word is not in memory, and when it is at fault itself. -/
theorem executeNext_eq_error_iff {state : State} {input : Input} {fault : Fault} :
    state.executeNext input = .error fault ↔
      (0xFFF ≤ state.pc.toNat ∧ fault = Memory.outOfBounds state.pc) ∨
        ∃ word, state.memory.word state.pc = .ok word ∧
          (Instruction.decode ⟨word⟩).fault? state.advanced = some fault := by
  rw [← Memory.word_eq_error_iff, executeNext]
  cases state.memory.word state.pc with
  | error _ => simp [bind, Except.bind]
  | ok word =>
    simp only [bind, Except.bind, reduceCtorEq, false_or, Except.ok.injEq, exists_eq_left',
      ← Instruction.execute_eq_error_iff input]
    rfl

end State

namespace Machine

/-! ## One step -/

/-- A machine runs if it is not halted and awaits no key. -/
theorem status_eq_running_iff {machine : Machine} :
    machine.status = .running ↔ machine.halted = none ∧ machine.state.awaiting = none := by
  unfold status
  split <;> simp_all

/-- A machine has the status of a wait if it is not halted and awaits the key. -/
theorem status_eq_awaitingKey_iff {machine : Machine} {x : Register} :
    machine.status = .awaitingKey x ↔
      machine.halted = none ∧ machine.state.awaiting = some x := by
  unfold status
  split <;> simp_all

/-- The instruction that a step executes, if it executes one: neither a look at the keys nor a
failing step does. -/
def executed? (machine : Machine) (input : Input) : Option Executed :=
  match machine.status with
  | .running =>
    match machine.state.memory.word machine.state.pc, machine.state.executeNext input with
    | .ok word, .ok _ => some { before := machine.state, op := ⟨word⟩ }
    | _, _ => none
  | _ => none

/-- The ways in which a step can end: what it executes, its result, and the machine after it. -/
inductive Transition (machine : Machine) (input : Input) :
    Option Executed → Except Fault Unit × Machine → Prop
  | halted {fault : Fault} (hhalted : machine.halted = some fault) :
      Transition machine input none (.error fault, machine)
  | polled {x : Register} (hrun : machine.halted = none)
      (hwait : machine.state.awaiting = some x) :
      Transition machine input none
        (.ok (), { machine with state := machine.state.poll x input.keyboard })
  | executed {word : UInt16} {after : State} (hrun : machine.halted = none)
      (hwait : machine.state.awaiting = none)
      (hfetch : machine.state.memory.word machine.state.pc = .ok word)
      (hleads : (Instruction.decode ⟨word⟩).Leads machine.state.advanced input after) :
      Transition machine input (some { before := machine.state, op := ⟨word⟩ })
        (.ok (), { machine with state := after.tick })
  | failed {fault : Fault} (hrun : machine.halted = none)
      (hwait : machine.state.awaiting = none)
      (hfails : machine.state.executeNext input = .error fault) :
      Transition machine input none (.error fault, { machine with halted := some fault })

/-- **Every step ends in one of these ways.** -/
theorem transition (machine : Machine) (input : Input) :
    machine.Transition input (machine.executed? input) (machine.step input) := by
  unfold executed? status
  rcases hrun : machine.halted with _ | fault
  · rcases hwait : machine.state.awaiting with _ | x
    · rcases hnext : machine.state.executeNext input with fault | after
      · rw [step_of_error hrun hwait hnext]
        cases machine.state.memory.word machine.state.pc with
        | error _ => exact .failed hrun hwait hnext
        | ok _ => exact .failed hrun hwait hnext
      · rw [step_of_ok hrun hwait hnext]
        obtain ⟨word, hfetch, hexecute⟩ := State.executeNext_eq_ok_iff.mp hnext
        rw [hfetch]
        exact .executed hrun hwait hfetch (Instruction.leads_of_execute hexecute)
    · rw [step_of_awaiting hrun hwait]
      exact .polled hrun hwait
  · rw [step_of_halted hrun]
    exact .halted hrun

/-! ## Runs of actions -/

/-- One action: the answer, and the machine after it. -/
def act (machine : Machine) : Action → Answer Screen × Machine
  | .step input => (.stepped (machine.step input).1, (machine.step input).2)
  | .takeFrame => (.frame machine.takeFrame.1, machine.takeFrame.2)

/-- The machine after a list of actions. -/
def run (machine : Machine) : List Action → Machine
  | [] => machine
  | action :: rest => (machine.act action).2.run rest

/-- What a machine answers to a list of actions. -/
def answers (machine : Machine) : List Action → List (Answer Screen)
  | [] => []
  | action :: rest => (machine.act action).1 :: (machine.act action).2.answers rest

/-- The instructions that a list of actions executes, in their order. -/
def history (machine : Machine) : List Action → List Executed
  | [] => []
  | .step input :: rest =>
    (machine.executed? input).toList ++ (machine.step input).2.history rest
  | .takeFrame :: rest => machine.takeFrame.2.history rest

/-- A run of two parts is the second part from where the first one leads. -/
theorem run_append (machine : Machine) (first second : List Action) :
    machine.run (first ++ second) = (machine.run first).run second := by
  induction first generalizing machine with
  | nil => rfl
  | cons action rest ih => exact ih _

/-- The answers to a list of two parts are those to the first, and then those to the second from
where the first one leads. -/
theorem answers_append (machine : Machine) (first second : List Action) :
    machine.answers (first ++ second) =
      machine.answers first ++ (machine.run first).answers second := by
  induction first generalizing machine with
  | nil => rfl
  | cons action rest ih => exact congrArg (_ :: ·) (ih _)

/-- Taking a frame changes nothing but the mark that the screen is due. -/
theorem takeFrame_snd (machine : Machine) :
    machine.takeFrame.2 = { machine with state := { machine.state with redraw := false } } := by
  obtain ⟨⟨v, i, pc, stack, delay, sound, memory, screen, redraw, awaiting⟩, size, halted⟩ :=
    machine
  cases redraw <;> rfl

/-- A step runs the same program. -/
theorem programSize_step (machine : Machine) (input : Input) :
    (machine.step input).2.programSize = machine.programSize := by
  have htransition := machine.transition input
  generalize machine.executed? input = executed, machine.step input = result at htransition ⊢
  cases htransition with
  | _ => rfl

/-- So does every run. -/
theorem programSize_run (machine : Machine) (actions : List Action) :
    (machine.run actions).programSize = machine.programSize := by
  induction actions generalizing machine with
  | nil => rfl
  | cons action rest ih =>
    rw [run, ih]
    cases action with
    | step input => exact machine.programSize_step input
    | takeFrame =>
      change machine.takeFrame.2.programSize = machine.programSize
      rw [takeFrame_snd]

/-! ## Reachable machines -/

/-- A machine that a loaded program can become. -/
inductive Reachable : Machine → Prop
  /-- A program was loaded. -/
  | load {image : List UInt8} {machine : Machine} (hload : load image = .ok machine) :
      Reachable machine
  /-- A reachable machine was stepped, or a frame was taken from it. -/
  | act {machine : Machine} (hreach : Reachable machine) (action : Action) :
      Reachable (machine.act action).2

/-- Runs lead from reachable machines to reachable ones. -/
theorem Reachable.run {machine : Machine} (hreach : machine.Reachable) (actions : List Action) :
    (machine.run actions).Reachable := by
  induction actions generalizing machine with
  | nil => exact hreach
  | cons action rest ih => exact ih (hreach.act action)

/-! ## Loading -/

/-- The machine that an image of acceptable size is loaded into. -/
def ofImage (image : List UInt8) : Machine where
  state := { memory := { bytes := Memory.initial.bytes.overwrite 0x200 image } }
  programSize := image.length

/-- An image is accepted exactly when it is not empty and fits. -/
theorem load_eq_ok_iff {image : List UInt8} {machine : Machine} :
    load image = .ok machine ↔
      image ≠ [] ∧ image.length ≤ 3584 ∧ machine = ofImage image := by
  have hcapacity : Memory.programCapacity = 3584 := rfl
  have hstart : (0x200 : UInt16).toNat = 512 := rfl
  unfold load
  rw [hcapacity]
  split_ifs with hsize
  · refine ⟨fun h => absurd h (by simp), ?_⟩
    rintro ⟨hne, hle, -⟩
    rcases hsize with hempty | hlarge
    · exact absurd hempty hne
    · omega
  · obtain ⟨hne, hle⟩ := not_or.mp hsize
    rw [Memory.write_of_le _ (by omega)]
    constructor
    · intro h
      cases h
      exact ⟨hne, by omega, rfl⟩
    · rintro ⟨-, -, rfl⟩
      rfl

end Machine

end Chip8
