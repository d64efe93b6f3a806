import Chip8.CallStack
import Chip8.Proofs.Histories

/-!
# The call stack as a bounded list

A stack that closes a call leaves the return address in its slot, so that stacks with different
slots can stand for the same open calls.

* `CallStack.Operation`, `CallStack.Answer`, `CallStack.perform`: what is asked of a call stack, and
  what it answers.
* `BoundedList.perform`: the same of a list, the newest address first, that refuses a seventeenth.
* `CallStack.newestFirst`: the list that a stack stands for. `perform_newestFirst`: it follows every
  operation, with the same answer.
* `CallStack.AgreesInUse`: two stacks that differ at most in slots that are not in use;
  `newestFirst_eq_iff`: they stand for the same list.
* `call_stack_answers_as_a_bounded_list`: the answers to any history are those of the list, and
  slots that are not in use have no part in them.
-/

namespace Chip8

namespace CallStack

/-- What is asked of a call stack. -/
inductive Operation
  /-- To open a call that returns to an address. -/
  | push (address : UInt16)
  /-- To close the newest call. -/
  | pop
  /-- How many calls are open. -/
  | length
  /-- Whether no call is open. -/
  | isEmpty
  /-- Whether no further call can be opened. -/
  | isFull
  deriving DecidableEq

/-- What a call stack answers. -/
inductive Answer
  /-- Whether a call was opened, or why not. -/
  | pushed (result : Except Fault Unit)
  /-- The return address of the call that was closed, if one was open. -/
  | popped (address : Option UInt16)
  /-- A number of calls. -/
  | count (number : Nat)
  /-- Whether something is so. -/
  | truth (holds : Bool)
  deriving DecidableEq

/-- One operation: the answer, and the stack after it. A refused one leaves the stack as it was. -/
def perform (stack : CallStack) : Operation → Answer × CallStack
  | .push address =>
    match stack.push address with
    | .ok after => (.pushed (.ok ()), after)
    | .error fault => (.pushed (.error fault), stack)
  | .pop =>
    match stack.pop? with
    | some (address, after) => (.popped (some address), after)
    | none => (.popped none, stack)
  | .length => (.count stack.depth, stack)
  | .isEmpty => (.truth stack.isEmpty, stack)
  | .isFull => (.truth stack.isFull, stack)

end CallStack

/-- One operation on a list of addresses, the newest first, that holds sixteen at most. -/
def BoundedList.perform (addresses : List UInt16) :
    CallStack.Operation → CallStack.Answer × List UInt16
  | .push address =>
    if addresses.length < 16 then (.pushed (.ok ()), address :: addresses)
    else (.pushed (.error (.stackOverflow 16)), addresses)
  | .pop => (.popped addresses.head?, addresses.tail)
  | .length => (.count addresses.length, addresses)
  | .isEmpty => (.truth addresses.isEmpty, addresses)
  | .isFull => (.truth (addresses.length == 16), addresses)

namespace CallStack

/-! ## The list that a stack stands for -/

/-- The addresses in use, the newest first. -/
def newestFirst (stack : CallStack) : List UInt16 :=
  stack.toList.reverse

/-- There are as many as the depth says. -/
@[simp] theorem length_newestFirst (stack : CallStack) :
    stack.newestFirst.length = stack.depth := by
  rw [newestFirst, List.length_reverse, length_toList]

/-- A push that succeeds puts its address in front. -/
theorem newestFirst_push {stack after : CallStack} {address : UInt16}
    (hpush : stack.push address = .ok after) :
    after.newestFirst = address :: stack.newestFirst := by
  rw [newestFirst, toList_push hpush, List.reverse_concat]
  rfl

/-- A push succeeds below sixteen addresses. -/
theorem depth_lt_of_push {stack after : CallStack} {address : UInt16}
    (hpush : stack.push address = .ok after) : stack.depth < 16 := by
  have hlength := congrArg List.length (newestFirst_push hpush)
  rw [List.length_cons, length_newestFirst, length_newestFirst] at hlength
  have := after.depth_le
  omega

/-- A pop takes off the address in front. -/
theorem newestFirst_pop? {stack after : CallStack} {address : UInt16}
    (hpop : stack.pop? = some (address, after)) :
    stack.newestFirst = address :: after.newestFirst := by
  rw [newestFirst, toList_pop? hpop, List.reverse_concat]
  rfl

/-- No address is in use when a pop gives nothing. -/
theorem newestFirst_of_pop?_eq_none {stack : CallStack} (hpop : stack.pop? = none) :
    stack.newestFirst = [] := by
  rw [← List.length_eq_zero_iff, length_newestFirst]
  exact (pop?_eq_none_iff stack).mp hpop

/-- **The list follows every operation**, with the same answer. -/
theorem perform_newestFirst (stack : CallStack) (operation : Operation) :
    BoundedList.perform stack.newestFirst operation =
      ((stack.perform operation).1, (stack.perform operation).2.newestFirst) := by
  cases operation with
  | push address =>
    rw [BoundedList.perform, perform, length_newestFirst]
    rcases hpush : stack.push address with fault | after
    · obtain ⟨hfull, rfl⟩ := (push_eq_error_iff stack address fault).mp hpush
      rw [if_neg (by omega)]
    · rw [if_pos (depth_lt_of_push hpush), newestFirst_push hpush]
  | pop =>
    rw [BoundedList.perform, perform]
    rcases hpop : stack.pop? with _ | ⟨address, after⟩
    · rw [newestFirst_of_pop?_eq_none hpop]
      rfl
    · rw [newestFirst_pop? hpop]
      rfl
  | length =>
    rw [BoundedList.perform, length_newestFirst]
    rfl
  | isEmpty =>
    have hempty : stack.newestFirst.isEmpty = stack.isEmpty := by
      rw [isEmpty, ← length_newestFirst]
      cases stack.newestFirst <;> rfl
    rw [BoundedList.perform, hempty]
    rfl
  | isFull =>
    rw [BoundedList.perform, length_newestFirst]
    rfl

/-- So the answers to a history are those of the list. -/
theorem transcript_newestFirst (stack : CallStack) (history : List Operation) :
    transcript perform stack history = transcript BoundedList.perform stack.newestFirst history :=
  transcript_eq_of_view newestFirst perform_newestFirst stack history

/-! ## Slots that are not in use -/

/-- Two stacks with as many addresses in use, and the same ones. -/
structure AgreesInUse (left right : CallStack) : Prop where
  /-- As many slots are in use. -/
  depth_eq : left.depth = right.depth
  /-- They hold the same addresses. -/
  slots_eq : ∀ k < left.depth, left.slots[k]? = right.slots[k]?

/-- The address in use at a place, if the place is in use. -/
theorem getElem?_toList (stack : CallStack) (k : Nat) :
    stack.toList[k]? = if k < stack.depth then stack.slots[k]? else none := by
  rw [toList, List.getElem?_take, Vector.getElem?_toList]

/-- **Stacks stand for the same list exactly if they agree in the slots that are in use.** -/
theorem newestFirst_eq_iff {left right : CallStack} :
    left.newestFirst = right.newestFirst ↔ left.AgreesInUse right := by
  rw [newestFirst, newestFirst, List.reverse_inj]
  constructor
  · intro hsame
    have hdepth : left.depth = right.depth := by
      rw [← length_toList, hsame, length_toList]
    refine ⟨hdepth, fun k hk => ?_⟩
    have hslot := congrArg (fun addresses => addresses[k]?) hsame
    simpa only [getElem?_toList, ← hdepth, if_pos hk] using hslot
  · -- Beyond the depth neither list has an address, whatever the slots hold there.
    rintro ⟨hdepth, hslots⟩
    apply List.ext_getElem?
    intro k
    rw [getElem?_toList, getElem?_toList, ← hdepth]
    split
    · next hk => exact hslots k hk
    · rfl

/-- **A call stack answers as a bounded list.** Whatever is asked of a stack that begins empty, in
whatever order, the answers are those of a list from which the last address put in is the first to
come out, and which refuses a seventeenth address and then stays as it is. And two stacks answer any
questions alike if they agree in the slots that are in use, whatever the other slots hold. -/
theorem call_stack_answers_as_a_bounded_list (history : List Operation) :
    transcript perform empty history = transcript BoundedList.perform [] history ∧
      ∀ left right : CallStack, left.AgreesInUse right →
        transcript perform left history = transcript perform right history := by
  refine ⟨transcript_newestFirst empty history, ?_⟩
  intro left right hagree
  rw [transcript_newestFirst, transcript_newestFirst, newestFirst_eq_iff.mpr hagree]

/-- Seventeen calls are opened, of which the last is refused, and two are closed. And a stack on
which a call was opened and closed answers as one that was never used, although its first slot still
holds the address. -/
theorem call_stack_answers_as_a_bounded_list_overfull :
    let pushes : List Operation := (List.range 17).map fun k => .push (UInt16.ofNat k)
    let opened := (empty.perform (.push 0x202)).2
    let used := (opened.perform .pop).2
    transcript perform empty (pushes ++ [.isFull, .pop, .pop, .length]) =
        List.replicate 16 (.pushed (.ok ())) ++
          [.pushed (.error (.stackOverflow 16)), .truth true, .popped (some 15), .popped (some 14),
            .count 14] ∧
      used.slots ≠ empty.slots ∧ used.AgreesInUse empty ∧
      transcript perform used [.pop, .push 0x300, .pop] =
        transcript perform empty [.pop, .push 0x300, .pop] := by
  intro pushes opened used
  have hstale : used.slots ≠ empty.slots := by decide
  have hagree : used.AgreesInUse empty := ⟨by decide, by decide⟩
  refine ⟨?_, hstale, hagree, ?_⟩
  · rw [(call_stack_answers_as_a_bounded_list _).1]
    decide
  · exact (call_stack_answers_as_a_bounded_list _).2 used empty hagree

end CallStack

end Chip8
