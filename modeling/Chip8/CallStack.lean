import Chip8.Fault

/-!
# The call stack

Sixteen slots for return addresses, of which the first `depth` are in use.

* `CallStack.push`, `CallStack.pop?`: the last address in is the first out.
* `CallStack.toList`: the addresses in use, the oldest first. What a slot above them holds is left
  over from earlier calls and means nothing.

`toList_push` and `toList_pop?` say what each operation does to the addresses in use.
-/

namespace Chip8

/-- Return addresses of the open calls. -/
structure CallStack where
  /-- The slots, in use or not. -/
  slots : Vector UInt16 16
  /-- How many slots, counted from the first, are in use. -/
  depth : Nat
  /-- No more slots are in use than there are. -/
  depth_le : depth ≤ 16

namespace CallStack

/-- The number of calls that can be open at a time. -/
abbrev capacity : Nat := 16

/-- No open call. -/
def empty : CallStack where
  slots := Vector.replicate capacity 0
  depth := 0
  depth_le := Nat.zero_le _

instance : Inhabited CallStack := ⟨empty⟩

/-- Whether no call is open. -/
def isEmpty (stack : CallStack) : Bool :=
  stack.depth == 0

/-- Whether every slot is in use. -/
def isFull (stack : CallStack) : Bool :=
  stack.depth == capacity

/-- The return addresses of the open calls, the oldest first. -/
def toList (stack : CallStack) : List UInt16 :=
  stack.slots.toList.take stack.depth

/-- Opens a call that returns to `address`. -/
def push (stack : CallStack) (address : UInt16) : Except Fault CallStack :=
  if h : stack.depth < 16 then
    .ok {
      slots := stack.slots.set stack.depth address
      depth := stack.depth + 1
      depth_le := h }
  else
    .error (.stackOverflow capacity)

/-- Closes the newest call: its return address, and the stack without it. -/
def pop? (stack : CallStack) : Option (UInt16 × CallStack) :=
  match h : stack.depth with
  | 0 => none
  | depth + 1 =>
    have depth_lt : depth < 16 := by
      have := stack.depth_le
      omega
    some (stack.slots[depth], { stack with depth, depth_le := Nat.le_of_lt depth_lt })

/-! ## The addresses in use -/

/-- There are as many addresses in use as the depth says. -/
@[simp] theorem length_toList (stack : CallStack) : stack.toList.length = stack.depth := by
  have := stack.depth_le
  rw [toList, List.length_take, Vector.length_toList]
  omega

/-- At the start no address is in use. -/
@[simp] theorem toList_empty : empty.toList = [] := rfl

/-- A push below capacity adds its address at the end. -/
theorem toList_push {stack after : CallStack} {address : UInt16}
    (h : stack.push address = .ok after) : after.toList = stack.toList ++ [address] := by
  rw [push] at h
  split at h
  · next hroom =>
    rw [← Except.ok.inj h]
    simp only [toList, Vector.toList_set]
    rw [List.take_add_one, List.take_set_of_le (Nat.le_refl _), List.getElem?_set_self]
    · rfl
    · rw [Vector.length_toList]
      exact hroom
  · exact absurd h (by simp)

/-- A push is refused exactly when every slot is in use. -/
theorem push_eq_error_iff (stack : CallStack) (address : UInt16) (fault : Fault) :
    stack.push address = .error fault ↔ stack.depth = 16 ∧ fault = .stackOverflow 16 := by
  have := stack.depth_le
  rw [push]
  split
  · simp
    omega
  · simp only [Except.error.injEq]
    constructor
    · rintro rfl
      exact ⟨by omega, rfl⟩
    · rintro ⟨_, rfl⟩
      rfl

/-- A pop takes the last address off. -/
theorem toList_pop? {stack after : CallStack} {address : UInt16}
    (h : stack.pop? = some (address, after)) : stack.toList = after.toList ++ [address] := by
  obtain ⟨slots, depth, depth_le⟩ := stack
  cases depth with
  | zero => exact absurd h (by simp [pop?])
  | succ depth =>
    simp only [pop?, Option.some.injEq, Prod.mk.injEq] at h
    obtain ⟨rfl, rfl⟩ := h
    simp only [toList]
    rw [List.take_add_one]
    congr 1
    rw [List.getElem?_eq_getElem (by rw [Vector.length_toList]; omega)]
    rfl

/-- A pop gives nothing exactly when no call is open. -/
theorem pop?_eq_none_iff (stack : CallStack) : stack.pop? = none ↔ stack.depth = 0 := by
  obtain ⟨slots, depth, depth_le⟩ := stack
  cases depth <;> simp [pop?]

end CallStack

end Chip8
