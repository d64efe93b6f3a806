import Chip8.Execution
import Mathlib.Tactic.SplitIfs

/-!
# What an instruction does, and when it is at fault

* `Instruction.Leads state input instruction after`: the instruction succeeds and leaves `after`,
  with one case for each form of instruction.
* `leads_of_execute`: a successful execution is one of these cases, so that a statement about all
  instructions is settled case by case.
* `Instruction.fault?`: the fault of an instruction, read off the state alone.
* `execute_eq_error_iff`: execution fails exactly with that fault, whatever the keys and the chance.
-/

namespace Chip8

/-! ## Mapping over a result -/

/-- A mapped result succeeds exactly when the result does. -/
theorem map_eq_ok_iff {ε α β : Type} {f : α → β} {result : Except ε α} {after : β} :
    result.map f = .ok after ↔ ∃ value, result = .ok value ∧ f value = after := by
  cases result with
  | error _ => simp [Except.map]
  | ok value => simp [Except.map]

/-- A mapped result fails exactly when the result does. -/
theorem map_eq_error_iff {ε α β : Type} {f : α → β} {result : Except ε α} {fault : ε} :
    result.map f = .error fault ↔ result = .error fault := by
  cases result with
  | error _ => simp [Except.map]
  | ok value => simp [Except.map]

namespace Memory

/-- A read that succeeds gives as many bytes as were asked for. -/
theorem length_of_read_eq_ok {memory : Memory} {start : UInt16} {count : Nat} {data : List UInt8}
    (hread : memory.read start count = .ok data) : data.length = count := by
  by_cases hin : start.toNat + count ≤ 4096
  · rw [read_of_le memory hin] at hread
    cases hread
    exact List.length_ofFn
  · rw [read_of_lt memory (Nat.lt_of_not_le hin)] at hread
    cases hread

/-- A read fails exactly when it leaves memory. -/
theorem read_eq_error_iff {memory : Memory} {start : UInt16} {count : Nat} {fault : Fault} :
    memory.read start count = .error fault ↔
      4096 < start.toNat + count ∧ fault = outOfBounds start := by
  by_cases h : start.toNat + count ≤ 4096
  · rw [read_of_le memory h]
    exact ⟨fun heq => absurd heq (by simp), fun ⟨hlt, _⟩ => absurd h (by omega)⟩
  · rw [read_of_lt memory (by omega), Except.error.injEq]
    exact ⟨fun heq => ⟨by omega, heq.symm⟩, fun ⟨_, heq⟩ => heq.symm⟩

/-- A write fails exactly when it leaves memory. -/
theorem write_eq_error_iff {memory : Memory} {start : UInt16} {data : List UInt8}
    {fault : Fault} :
    memory.write start data = .error fault ↔
      4096 < start.toNat + data.length ∧ fault = outOfBounds start := by
  by_cases h : start.toNat + data.length ≤ 4096
  · rw [write_of_le memory h]
    exact ⟨fun heq => absurd heq (by simp), fun ⟨hlt, _⟩ => absurd h (by omega)⟩
  · rw [write_of_lt memory (by omega), Except.error.injEq]
    exact ⟨fun heq => ⟨by omega, heq.symm⟩, fun ⟨_, heq⟩ => heq.symm⟩

/-- A word is fetched exactly where both its bytes lie in memory. -/
theorem word_eq_error_iff {memory : Memory} {start : UInt16} {fault : Fault} :
    memory.word start = .error fault ↔ 0xFFF ≤ start.toNat ∧ fault = outOfBounds start := by
  unfold word
  split_ifs with h
  · exact ⟨fun heq => absurd heq (by simp), fun ⟨hle, _⟩ => absurd h (by omega)⟩
  · rw [Except.error.injEq]
    exact ⟨fun heq => ⟨by omega, heq.symm⟩, fun ⟨_, heq⟩ => heq.symm⟩

/-- Where a word is fetched, its first byte is not the last of memory. -/
theorem lt_of_word_eq_ok {memory : Memory} {start word : UInt16}
    (h : memory.word start = .ok word) : start.toNat + 1 < 4096 := by
  unfold Memory.word at h
  split_ifs at h with hin
  exact hin

end Memory

namespace State

/-! ## Fields that a combination leaves alone -/

section combine

variable (state : State) (operation : Arithmetic) (x y : Register)

/-- A combination of registers changes nothing but registers. -/
theorem combine_eq :
    state.combine operation x y = { state with v := (state.combine operation x y).v } := by
  unfold combine
  dsimp only
  split <;> rfl

@[simp] theorem combine_pc : (state.combine operation x y).pc = state.pc := by
  rw [combine_eq]

@[simp] theorem combine_stack : (state.combine operation x y).stack = state.stack := by
  rw [combine_eq]

@[simp] theorem combine_awaiting : (state.combine operation x y).awaiting = state.awaiting := by
  rw [combine_eq]

end combine

end State

namespace Instruction

/-! ## Success -/

/-- What a successful instruction leaves behind, for each form of instruction. -/
inductive Leads (state : State) (input : Input) : Instruction → State → Prop
  | idle : Leads state input .idle state
  | clear : Leads state input .clear { state with screen := .blank, redraw := true }
  | ret {pc : UInt16} {stack : CallStack} (hpop : state.stack.pop? = some (pc, stack)) :
      Leads state input .ret { state with pc, stack }
  | jump (target : Address) :
      Leads state input (.jump target) { state with pc := target.toWord }
  | call (target : Address) {stack : CallStack} (hpush : state.stack.push state.pc = .ok stack) :
      Leads state input (.call target) { state with pc := target.toWord, stack }
  | skip {condition : Condition} (hholds : condition.holds state input.keyboard = true) :
      Leads state input (.skip condition) { state with pc := state.pc + 2 }
  | noSkip {condition : Condition} (hholds : condition.holds state input.keyboard = false) :
      Leads state input (.skip condition) state
  | load (x : Register) (kk : UInt8) :
      Leads state input (.load x kk) { state with v := state.v.put x kk }
  | increase (x : Register) (kk : UInt8) :
      Leads state input (.increase x kk) { state with v := state.v.put x (state.v.get x + kk) }
  | combine (operation : Arithmetic) (x y : Register) :
      Leads state input (.combine operation x y) (state.combine operation x y)
  | point (target : Address) :
      Leads state input (.point target) { state with i := target.toWord }
  | jumpFrom (target : Address) :
      Leads state input (.jumpFrom target)
        { state with pc := (state.v.get 0).toUInt16 + target.toWord }
  | random (x : Register) (mask : UInt8) :
      Leads state input (.random x mask) { state with v := state.v.put x (input.chance &&& mask) }
  | draw (x y : Register) {n : Fin 16} {sprite : List UInt8}
      (hread : state.memory.read state.i n.val = .ok sprite) :
      Leads state input (.draw x y n) (state.drawSprite x y sprite)
  | readDelay (x : Register) :
      Leads state input (.readDelay x) { state with v := state.v.put x state.delay }
  | awaitKey (x : Register) :
      Leads state input (.awaitKey x) { state with pc := state.pc - 2, awaiting := some x }
  | setDelay (x : Register) : Leads state input (.setDelay x) { state with delay := state.v.get x }
  | setSound (x : Register) : Leads state input (.setSound x) { state with sound := state.v.get x }
  | advance (x : Register) :
      Leads state input (.advance x) { state with i := state.i + (state.v.get x).toUInt16 }
  | pointGlyph (x : Register) :
      Leads state input (.pointGlyph x) { state with i := Font.address (state.v.get x) }
  | storeDecimal (x : Register) {memory : Memory}
      (hwrite : state.memory.write state.i (decimalDigits (state.v.get x)) = .ok memory) :
      Leads state input (.storeDecimal x) { state with memory }
  | save (x : Register) {memory : Memory}
      (hwrite : state.memory.write state.i (state.v.toList.take (x.val + 1)) = .ok memory) :
      Leads state input (.save x) { state with memory }
  | restore (x : Register) {data : List UInt8}
      (hread : state.memory.read state.i (x.val + 1) = .ok data) :
      Leads state input (.restore x) { state with v := Block.overwrite state.v 0 data }

/-- **A successful execution is one of the cases of `Leads`.** -/
theorem leads_of_execute {state after : State} {input : Input} {instruction : Instruction}
    (h : instruction.execute state input = .ok after) : Leads state input instruction after := by
  cases instruction with
  | ret =>
    simp only [execute] at h
    split at h
    · next hpop =>
      cases h
      exact .ret hpop
    · cases h
  | call target =>
    obtain ⟨stack, hpush, rfl⟩ := map_eq_ok_iff.mp h
    exact .call target hpush
  | skip condition =>
    simp only [execute] at h
    split_ifs at h with hholds
    · cases h
      exact .skip hholds
    · cases h
      exact .noSkip (Bool.eq_false_iff.mpr hholds)
  | draw x y n =>
    obtain ⟨sprite, hread, rfl⟩ := map_eq_ok_iff.mp h
    exact .draw x y hread
  | storeDecimal x =>
    obtain ⟨memory, hwrite, rfl⟩ := map_eq_ok_iff.mp h
    exact .storeDecimal x hwrite
  | save x =>
    obtain ⟨memory, hwrite, rfl⟩ := map_eq_ok_iff.mp h
    exact .save x hwrite
  | restore x =>
    obtain ⟨data, hread, rfl⟩ := map_eq_ok_iff.mp h
    exact .restore x hread
  | _ =>
    cases h
    constructor

/-! ## Fault -/

/-- The fault that an instruction commits in a state, if it commits one. The program counter
already points past the instruction. -/
def fault? (state : State) : Instruction → Option Fault
  | ret => if state.stack.depth = 0 then some (.stackUnderflow (state.pc - 2)) else none
  | call _ => if state.stack.depth = 16 then some (.stackOverflow 16) else none
  | draw _ _ n =>
    if 4096 < state.i.toNat + n.val then some (Memory.outOfBounds state.i) else none
  | storeDecimal _ =>
    if 4096 < state.i.toNat + 3 then some (Memory.outOfBounds state.i) else none
  | save x | restore x =>
    if 4096 < state.i.toNat + (x.val + 1) then some (Memory.outOfBounds state.i) else none
  | _ => none

/-- Storing bytes fails exactly when they would leave memory. -/
theorem storeBytes_eq_error_iff {state : State} {data : List UInt8} {fault : Fault} :
    state.storeBytes data = .error fault ↔
      4096 < state.i.toNat + data.length ∧ fault = Memory.outOfBounds state.i := by
  unfold State.storeBytes
  rw [map_eq_error_iff, Memory.write_eq_error_iff]

/-- There are as many registers to save as the instruction names. -/
theorem length_take_registers (registers : Registers) (x : Register) :
    (registers.toList.take (x.val + 1)).length = x.val + 1 := by
  have hx : x.val < 16 := x.isLt
  rw [List.length_take, Vector.length_toList]
  omega

/-- **Execution fails exactly with the fault of the instruction**, which neither the keys nor the
chance have a part in. -/
theorem execute_eq_error_iff {state : State} (input : Input) {instruction : Instruction}
    {fault : Fault} :
    instruction.execute state input = .error fault ↔ instruction.fault? state = some fault := by
  cases instruction with
  | ret =>
    simp only [execute, fault?]
    split
    · next hpop =>
      have hdepth : state.stack.depth ≠ 0 := by
        intro hzero
        rw [(CallStack.pop?_eq_none_iff state.stack).mpr hzero] at hpop
        cases hpop
      rw [if_neg hdepth]
      exact ⟨fun h => absurd h (by simp), fun h => absurd h (by simp)⟩
    · next hpop =>
      rw [if_pos ((CallStack.pop?_eq_none_iff state.stack).mp hpop)]
      exact ⟨fun h => congrArg some (Except.error.inj h),
        fun h => congrArg Except.error (Option.some.inj h)⟩
  | call target =>
    simp only [execute, fault?]
    rw [map_eq_error_iff, CallStack.push_eq_error_iff, Option.ite_none_right_eq_some,
      Option.some.injEq, eq_comm (a := fault)]
  | draw x y n =>
    simp only [execute, fault?]
    rw [map_eq_error_iff, Memory.read_eq_error_iff, Option.ite_none_right_eq_some,
      Option.some.injEq, eq_comm (a := fault)]
  | storeDecimal x =>
    simp only [execute, fault?]
    rw [storeBytes_eq_error_iff, Option.ite_none_right_eq_some, Option.some.injEq,
      eq_comm (a := fault)]
    rfl
  | save x =>
    simp only [execute, fault?]
    rw [storeBytes_eq_error_iff, Option.ite_none_right_eq_some, Option.some.injEq,
      eq_comm (a := fault), length_take_registers]
  | restore x =>
    simp only [execute, fault?]
    rw [map_eq_error_iff, Memory.read_eq_error_iff, Option.ite_none_right_eq_some,
      Option.some.injEq, eq_comm (a := fault)]
  | _ => exact ⟨fun h => absurd h (by simp [execute]), fun h => absurd h (by simp [fault?])⟩

end Instruction

end Chip8
