import Chip8.Proofs.Invariant
import Chip8.Proofs.PackedScreen

/-!
# Execution that checks its numbers and places

Sums of 16-bit numbers wrap around silently, and registers, stack slots, bytes of memory and bytes
of the screen are reached through types that rule out a bad place. Here both are made visible:

* `Checked.step?`: a step in which every 16-bit sum must fit into 16 bits, and every place in the
  registers, the stack, the memory and the screen must exist when it is used. It gives nothing when
  a sum or a place fails its check.
* `step?_eq_step`: on a sound machine no check fails, and the result is that of the plain step.
* `run_stays_in_range`: hence no run of a loaded program ever fails a check.

The faults of the machine are no failed checks: they are found before the place is used. The bytes
of the screen that a sprite touches are checked by `draw?`, one for each set bit of the sprite.
-/

namespace Chip8.Checked

/-! ## Checked access -/

/-- A number as a word of 16 bits, if it fits. -/
def fit? (number : Nat) : Option UInt16 :=
  if number < 0x10000 then some (UInt16.ofNat number) else none

/-- The byte in a register, if there is such a register. -/
def register? (state : State) (x : Nat) : Option UInt8 :=
  state.v[x]?

/-- Puts a byte into a register, if there is such a register. -/
def put? (state : State) (x : Nat) (byte : UInt8) : Option State :=
  if h : x < 16 then some { state with v := state.v.set x byte h } else none

/-- Reads a stretch of memory: judges its bounds first, and then takes the bytes if they are
there. -/
def read? (memory : Memory) (start : UInt16) (count : Nat) :
    Option (Except Fault (List UInt8)) :=
  if 4096 < start.toNat + count then
    some (.error (Memory.outOfBounds start))
  else
    (memory.bytes.read? start.toNat count).map .ok

/-- Reads the word at an address from the two bytes of a stretch. -/
def word? (memory : Memory) (start : UInt16) : Option (Except Fault UInt16) :=
  (read? memory start 2).bind fun
    | .error fault => some (.error fault)
    | .ok data => do
      let high ← data[0]?
      let low ← data[1]?
      let word ← fit? (256 * high.toNat + low.toNat)
      some (.ok word)

/-- Writes a stretch of memory: judges its bounds first, and then puts the bytes if there is
place for them. -/
def write? (memory : Memory) (start : UInt16) (data : List UInt8) :
    Option (Except Fault Memory) :=
  if 4096 < start.toNat + data.length then
    some (.error (Memory.outOfBounds start))
  else
    (memory.bytes.write? start.toNat data).map fun bytes => .ok { bytes }

/-- Opens a call: looks whether the stack is full, and then uses the slot at its depth if there is
one. -/
def push? (stack : CallStack) (address : UInt16) : Option (Except Fault CallStack) :=
  if stack.isFull then
    some (.error (.stackOverflow CallStack.capacity))
  else if h : stack.depth < 16 then
    some (.ok {
      slots := stack.slots.set stack.depth address h
      depth := stack.depth + 1
      depth_le := h })
  else
    none

/-- Closes a call: looks whether the stack is empty, and then uses the slot below its depth if
there is one. -/
def pop? (stack : CallStack) (underflow : Fault) : Option (Except Fault (UInt16 × CallStack)) :=
  if stack.isEmpty then
    some (.error underflow)
  else
    stack.slots[stack.depth - 1]?.map fun address =>
      .ok (address, {
        stack with
        depth := stack.depth - 1
        depth_le := Nat.le_trans (Nat.sub_le _ 1) stack.depth_le })

/-- Whether a condition holds, if the registers it names are there. -/
def holds? (state : State) (keyboard : Keyboard) : Condition → Option Bool
  | .isByte x kk => (register? state x).map (· == kk)
  | .isNotByte x kk => (register? state x).map (· != kk)
  | .equal x y => do
    let a ← register? state x
    let b ← register? state y
    some (a == b)
  | .different x y => do
    let a ← register? state x
    let b ← register? state y
    some (a != b)
  | .keyDown x => (register? state x).map fun key => keyboard.isPressed (key &&& 0xF)
  | .keyUp x => (register? state x).map fun key => !keyboard.isPressed (key &&& 0xF)

/-! ## Checked execution -/

/-- The sum that decides on a carry, the only operation that goes beyond bytes. -/
def sum? (operation : Arithmetic) (a b : UInt8) : Option UInt16 :=
  if operation = .add then fit? (a.toNat + b.toNat) else some 0

/-- Combines two registers, and then sets VF if the operation has a flag. -/
def combine? (state : State) (operation : Arithmetic) (x y : Nat) : Option State := do
  let a ← register? state x
  let b ← register? state y
  let _ ← sum? operation a b
  let combined ← put? state x (operation.result a b)
  match operation.flag? a b with
  | none => some combined
  | some flag => put? combined 0xF flag.toUInt8

/-- The state after an instruction, or its fault. -/
def execute? (state : State) (input : Input) : Instruction → Option (Except Fault State)
  | .idle => some (.ok state)
  | .clear => some (.ok { state with screen := .blank, redraw := true })
  | .ret =>
    (pop? state.stack (.stackUnderflow (state.pc - 2))).map
      (·.map fun (pc, stack) => { state with pc, stack })
  | .jump target => some (.ok { state with pc := target.toWord })
  | .call target =>
    (push? state.stack state.pc).map (·.map fun stack => { state with pc := target.toWord, stack })
  | .skip condition => do
    if ← holds? state input.keyboard condition then
      let pc ← fit? (state.pc.toNat + 2)
      some (.ok { state with pc })
    else
      some (.ok state)
  | .load x kk => (put? state x kk).map .ok
  | .increase x kk => do
    let a ← register? state x
    (put? state x (a + kk)).map .ok
  | .combine operation x y => (combine? state operation x y).map .ok
  | .point target => some (.ok { state with i := target.toWord })
  | .jumpFrom target => do
    let a ← register? state 0
    let pc ← fit? (a.toNat + target.val)
    some (.ok { state with pc })
  | .random x mask => (put? state x (input.chance &&& mask)).map .ok
  | .draw x y n => do
    match ← read? state.memory state.i n with
    | .error fault => some (.error fault)
    | .ok sprite =>
      let column ← register? state x
      let line ← register? state y
      let (screen, hit) ← draw? state.screen column.toNat line.toNat sprite
      (put? { state with screen, redraw := true } 0xF hit.toUInt8).map .ok
  | .readDelay x => (put? state x state.delay).map .ok
  | .awaitKey x => some (.ok { state with pc := state.pc - 2, awaiting := some x })
  | .setDelay x => (register? state x).map fun delay => .ok { state with delay }
  | .setSound x => (register? state x).map fun sound => .ok { state with sound }
  | .advance x =>
    (register? state x).map fun a => .ok { state with i := state.i + a.toUInt16 }
  | .pointGlyph x => do
    let digit ← register? state x
    let i ← fit? (Font.start + Font.glyphSize * digit.toNat)
    some (.ok { state with i })
  | .storeDecimal x => do
    let a ← register? state x
    (write? state.memory state.i (decimalDigits a)).map (·.map fun memory => { state with memory })
  | .save x => do
    let data ← state.v.read? 0 (x.val + 1)
    (write? state.memory state.i data).map (·.map fun memory => { state with memory })
  | .restore x => do
    match ← read? state.memory state.i (x.val + 1) with
    | .error fault => some (.error fault)
    | .ok data => (state.v.write? 0 data).map fun v => .ok { state with v }

/-- Fetches and executes the next instruction. -/
def executeNext? (state : State) (input : Input) : Option (Except Fault State) := do
  match ← word? state.memory state.pc with
  | .error fault => some (.error fault)
  | .ok word =>
    let pc ← fit? (state.pc.toNat + 2)
    execute? { state with pc } input (Instruction.decode ⟨word⟩)

/-- Looks at the keys while a wait is on. -/
def poll? (state : State) (x : Nat) (keyboard : Keyboard) : Option State :=
  match keyboard.pressedKey with
  | none => some state
  | some key => do
    let answered ← put? state x key
    let pc ← fit? (state.pc.toNat + 2)
    some { answered with awaiting := none, pc }

/-- One step: the result, and the machine after it. -/
def step? (machine : Machine) (input : Input) : Option (Except Fault Unit × Machine) :=
  match machine.halted with
  | some fault => some (.error fault, machine)
  | none =>
    match machine.state.awaiting with
    | some x =>
      (poll? machine.state x input.keyboard).map fun state => (.ok (), { machine with state })
    | none =>
      (executeNext? machine.state input).map fun
        | .ok state => (.ok (), { machine with state := state.tick })
        | .error fault => (.error fault, { machine with halted := some fault })

/-! ## The checks do not fail -/

/-- A number below 2^16 fits. -/
theorem fit?_of_lt {number : Nat} (h : number < 0x10000) :
    fit? number = some (UInt16.ofNat number) :=
  if_pos h

/-- Moving past an instruction in memory fits. -/
theorem fit?_add_two {pc : UInt16} (h : pc.toNat ≤ 0x1000) :
    fit? (pc.toNat + 2) = some (pc + 2) := by
  rw [fit?_of_lt (by omega)]
  rfl

section places

variable (state : State) (x : Register)

@[simp] theorem register?_eq : register? state x.val = some (state.v.get x) := by
  unfold register?
  rw [Vector.getElem?_eq_getElem x.isLt]
  rfl

@[simp] theorem put?_eq (byte : UInt8) :
    put? state x.val byte = some { state with v := state.v.put x byte } :=
  dif_pos x.isLt

end places

@[simp] theorem read?_eq (memory : Memory) (start : UInt16) (count : Nat) :
    read? memory start count = some (memory.read start count) := by
  unfold read?
  split_ifs with h
  · rw [Memory.read_of_lt memory h]
  · rw [Memory.read_of_le memory (by omega), Block.read?_of_le _ (by omega)]
    rfl

@[simp] theorem write?_eq (memory : Memory) (start : UInt16) (data : List UInt8) :
    write? memory start data = some (memory.write start data) := by
  unfold write?
  split_ifs with h
  · rw [Memory.write_of_lt memory h]
  · rw [Memory.write_of_le memory (by omega), Block.write?, if_pos (by omega)]
    rfl

/-- The two bytes of a word are read, and make a number of 16 bits. -/
@[simp] theorem word?_eq (memory : Memory) (start : UInt16) :
    word? memory start = some (memory.word start) := by
  unfold word? Memory.word
  rw [read?_eq, Option.bind_some]
  split_ifs with h
  · rw [Memory.read_of_le memory (by omega)]
    have hhigh := memory.bytes[start.toNat].toNat_lt
    have hlow := memory.bytes[start.toNat + 1].toNat_lt
    have hfit := fit?_of_lt (show
      256 * memory.bytes[start.toNat].toNat + memory.bytes[start.toNat + 1].toNat < 0x10000 by
        omega)
    simp [List.ofFn_succ, hfit]
  · rw [Memory.read_of_lt memory (by omega)]

@[simp] theorem push?_eq (stack : CallStack) (address : UInt16) :
    push? stack address = some (stack.push address) := by
  have hle := stack.depth_le
  unfold push? CallStack.push CallStack.isFull
  by_cases h : stack.depth < 16
  · have hfull : ¬(stack.depth == CallStack.capacity) = true := by
      simp only [beq_iff_eq, CallStack.capacity]
      omega
    rw [if_neg hfull, dif_pos h, dif_pos h]
  · have hfull : (stack.depth == CallStack.capacity) = true := by
      simp only [beq_iff_eq, CallStack.capacity]
      omega
    rw [if_pos hfull, dif_neg h]

/-- A pop from the stack, with its underflow. -/
@[simp] theorem pop?_eq (stack : CallStack) (underflow : Fault) :
    pop? stack underflow =
      some (match stack.pop? with
        | some popped => .ok popped
        | none => .error underflow) := by
  obtain ⟨slots, depth, depth_le⟩ := stack
  unfold pop? CallStack.isEmpty
  cases depth with
  | zero => rfl
  | succ depth =>
    have hslot : depth < 16 := by omega
    have hempty : ¬(depth + 1 == 0) = true := by simp
    simp only [if_neg hempty, Nat.add_sub_cancel, CallStack.pop?]
    rw [Vector.getElem?_eq_getElem hslot]
    rfl

@[simp] theorem holds?_eq (state : State) (keyboard : Keyboard) (condition : Condition) :
    holds? state keyboard condition = some (condition.holds state keyboard) := by
  cases condition <;> simp [holds?, Condition.holds]

/-- The sum of two bytes fits into 16 bits. -/
theorem exists_sum?_eq (operation : Arithmetic) (a b : UInt8) :
    ∃ sum, sum? operation a b = some sum := by
  have ha := a.toNat_lt
  have hb := b.toNat_lt
  unfold sum?
  split_ifs
  · exact ⟨_, fit?_of_lt (by omega)⟩
  · exact ⟨0, rfl⟩

@[simp] theorem combine?_eq (state : State) (operation : Arithmetic) (x y : Register) :
    combine? state operation x y = some (state.combine operation x y) := by
  obtain ⟨sum, hsum⟩ := exists_sum?_eq operation (state.v.get x) (state.v.get y)
  unfold combine? State.combine
  simp only [register?_eq, Option.bind_eq_bind, Option.bind_some, hsum, put?_eq]
  cases operation.flag? (state.v.get x) (state.v.get y) with
  | none => rfl
  | some flag => exact put?_eq _ 0xF _

/-- The registers that an instruction saves are there. -/
theorem read?_registers (registers : Registers) (x : Register) :
    registers.read? 0 (x.val + 1) = some (registers.toList.take (x.val + 1)) := by
  have hx := x.isLt
  rw [Block.read?_of_le _ (by omega)]
  congr 1
  apply List.ext_getElem
  · rw [List.length_ofFn, Instruction.length_take_registers]
  · intro k hk hk'
    rw [List.getElem_ofFn, List.getElem_take, Vector.getElem_toList]
    simp only [Nat.zero_add]

/-- **No check fails while an instruction is executed** whose successor the program counter points
at inside memory. -/
theorem execute?_eq {state : State} (hpc : state.pc.toNat ≤ 0x1000) (input : Input)
    (instruction : Instruction) :
    execute? state input instruction = some (instruction.execute state input) := by
  cases instruction with
  | idle => rfl
  | clear => rfl
  | jump target => rfl
  | point target => rfl
  | awaitKey x => rfl
  | ret =>
    simp only [execute?, pop?_eq, Instruction.execute]
    cases state.stack.pop? <;> rfl
  | call target =>
    simp only [execute?, push?_eq, Instruction.execute, Option.map_some]
  | skip condition =>
    simp only [execute?, Instruction.execute, holds?_eq, fit?_add_two hpc]
    cases condition.holds state input.keyboard <;> rfl
  | combine operation x y =>
    simp only [execute?, combine?_eq, Instruction.execute, Option.map_some]
  | jumpFrom target =>
    have hv := (state.v.get 0).toNat_lt
    have htarget := target.isLt
    have hv0 : register? state 0 = some (state.v.get 0) := register?_eq state 0
    have hpc : UInt16.ofNat ((state.v.get 0).toNat + target.val) =
        (state.v.get 0).toUInt16 + target.toWord := by
      apply UInt16.toNat_inj.mp
      rw [UInt16.toNat_ofNat', UInt16.toNat_add, UInt8.toNat_toUInt16, Address.toNat_toWord]
    simp only [execute?, Instruction.execute, hv0, Option.bind_eq_bind, Option.bind_some]
    rw [fit?_of_lt (by omega), Option.bind_some, hpc]
  | draw x y n =>
    simp only [execute?, Instruction.execute, read?_eq, Option.bind_eq_bind, Option.bind_some]
    cases state.memory.read state.i n with
    | error _ => rfl
    | ok sprite =>
      simp only [register?_eq, draw?_eq, Option.bind_some]
      exact congrArg (Option.map Except.ok) (put?_eq _ 0xF _)
  | pointGlyph x =>
    have hv := (state.v.get x).toNat_lt
    simp only [execute?, Instruction.execute, register?_eq, Option.bind_eq_bind, Option.bind_some]
    rw [fit?_of_lt (by change 80 + 5 * _ < _; omega)]
    rfl
  | save x =>
    simp only [execute?, Instruction.execute, State.storeBytes, read?_registers, write?_eq,
      Option.bind_eq_bind, Option.bind_some, Option.map_some]
  | restore x =>
    simp only [execute?, Instruction.execute, read?_eq, Option.bind_eq_bind, Option.bind_some]
    cases hread : state.memory.read state.i (x.val + 1) with
    | error _ => rfl
    | ok data =>
      have hx := x.isLt
      have hlength := Memory.length_of_read_eq_ok hread
      simp only [Block.write?]
      rw [if_pos (by omega)]
      rfl
  | _ =>
    simp only [execute?, Instruction.execute, State.storeBytes, register?_eq, put?_eq, write?_eq,
      Option.bind_eq_bind, Option.bind_some, Option.map_some]

/-- No check fails while the next instruction is fetched and executed. -/
theorem executeNext?_eq (state : State) (input : Input) :
    executeNext? state input = some (state.executeNext input) := by
  unfold executeNext? State.executeNext
  simp only [word?_eq, Option.bind_eq_bind, Option.bind_some]
  cases hfetch : state.memory.word state.pc with
  | error _ => rfl
  | ok word =>
    have hpc := Memory.lt_of_word_eq_ok hfetch
    have hnext : (state.pc + 2).toNat ≤ 0x1000 := by
      rw [Instruction.toNat_add_two hpc]
      omega
    simp only [fit?_add_two (show state.pc.toNat ≤ 0x1000 by omega), Option.bind_some]
    exact execute?_eq hnext input _

/-- **On a sound machine no check fails**, and the checked step is the plain one. -/
theorem step?_eq_step {machine : Machine} (hsound : machine.Sound) (input : Input) :
    step? machine input = some (machine.step input) := by
  unfold step? Machine.step
  rcases hrun : machine.halted with _ | fault
  · rcases hwait : machine.state.awaiting with _ | x
    · refine (congrArg (Option.map _) (executeNext?_eq machine.state input)).trans ?_
      cases machine.state.executeNext input with
      | error fault => rfl
      | ok after => rfl
    · obtain ⟨-, -, hpc, -⟩ := hsound.waiting x hwait
      simp only [poll?, State.poll]
      cases input.keyboard.pressedKey with
      | none => rfl
      | some key =>
        simp only [put?_eq, fit?_add_two (show machine.state.pc.toNat ≤ 0x1000 by omega),
          Option.bind_eq_bind, Option.bind_some, Option.map_some]
  · rfl

/-! ## Every run -/

/-- **No run leaves its range.** Whatever a host does to a machine with a loaded program, the
machine stays sound, and in its next step every 16-bit sum fits and every place is there. -/
theorem run_stays_in_range {image : List UInt8} {start : Machine}
    (hload : Machine.load image = .ok start) (actions : List Action) :
    (start.run actions).Sound ∧
      ∀ input, step? (start.run actions) input = some ((start.run actions).step input) := by
  have hsound : (start.run actions).Sound := ((Machine.Reachable.load hload).run actions).sound
  exact ⟨hsound, fun input => step?_eq_step hsound input⟩

/-- A program that awaits a key for V5: the wait stands on its instruction, whose word is in
memory, and no next step fails a check. -/
theorem run_stays_in_range_awaiting_key :
    let image : List UInt8 := [0xF5, 0x0A]
    let waiting := ((Machine.ofImage image).step { keyboard := Keypad.empty.keyboard }).2
    Machine.load image = .ok (Machine.ofImage image) ∧ waiting.state.awaiting = some 5 ∧
      waiting.state.memory.word waiting.state.pc = .ok 0xF50A ∧
      ∀ input, step? waiting input = some (waiting.step input) := by
  intro image waiting
  have hload : Machine.load image = .ok (Machine.ofImage image) :=
    Machine.load_eq_ok_iff.mpr ⟨by decide, by decide, rfl⟩
  have hawaiting : waiting.state.awaiting = some 5 := by decide +kernel
  obtain ⟨hsound, hstep⟩ :=
    run_stays_in_range hload [.step { keyboard := Keypad.empty.keyboard }]
  obtain ⟨-, -, -, hword⟩ := hsound.waiting 5 hawaiting
  exact ⟨hload, hawaiting, hword, hstep⟩

end Chip8.Checked
