import Chip8.Proofs.Decoding
import Chip8.Proofs.Runs
import Mathlib.Control.Monad.Basic

/-!
# Calls and returns over whole runs

* `step_stack_cases`: a step opens a call, closes one, or leaves the stack alone; only the opcodes
  `2nnn` and `00EE` do the first two.
* `run_keeps_base`: the oldest return addresses stay as they are while the stack is no lower than
  they reach.
* `depth_add_returnCount`: the depth counts the calls and returns of a run.
* `calls_return_to_their_callers`: the return that brings the stack back to the depth it had before
  a call goes to the instruction after the call, with the stack of the caller.

The slots above the depth still hold addresses of earlier calls. They play no part here, since all
statements are about the addresses in use.
-/

namespace Chip8

/-- Whether an instruction was a call. -/
def Executed.isCall (executed : Executed) : Bool :=
  executed.op.family == 0x2

/-- Whether an instruction was a return. -/
def Executed.isReturn (executed : Executed) : Bool :=
  executed.op.word == 0x00EE

/-! ## One step -/

/-- An instruction opens a call, closes one, or leaves the stack alone. -/
theorem Instruction.Leads.stack_cases {state after : State} {input : Input} {op : Opcode}
    (hleads : (decode op).Leads state input after) :
    (op.family = 0x2 ∧ op.word ≠ 0x00EE ∧
        after.stack.toList = state.stack.toList ++ [state.pc]) ∨
      (op.family ≠ 0x2 ∧ op.word = 0x00EE ∧
        state.stack.toList = after.stack.toList ++ [after.pc]) ∨
      (op.family ≠ 0x2 ∧ op.word ≠ 0x00EE ∧ after.stack = state.stack) := by
  have hcall : op.family = 0x2 → decode op = .call op.nnn := fun hfamily =>
    (decode_eq_call_iff op _).mpr ⟨hfamily, rfl⟩
  have hret : op.word = 0x00EE → decode op = .ret := (decode_eq_ret_iff op).mpr
  generalize hdecode : decode op = instruction at hleads hcall hret
  cases hleads with
  | @ret pc stack hpop =>
    have hpopped := CallStack.toList_pop? hpop
    have hnotCall : op.family ≠ 0x2 := by
      intro hfamily
      cases hcall hfamily
    exact .inr (.inl ⟨hnotCall, (decode_eq_ret_iff op).mp hdecode, hpopped⟩)
  | @call target stack hpush =>
    obtain ⟨hfamily, -⟩ := (decode_eq_call_iff op target).mp hdecode
    have hnotRet : op.word ≠ 0x00EE := by
      intro hword
      cases hret hword
    exact .inl ⟨hfamily, hnotRet, CallStack.toList_push hpush⟩
  | combine operation x y =>
    refine .inr (.inr ⟨?_, ?_, State.combine_stack state operation x y⟩)
    · intro hfamily
      cases hcall hfamily
    · intro hword
      cases hret hword
  | _ =>
    refine .inr (.inr ⟨?_, ?_, rfl⟩)
    · intro hfamily
      cases hcall hfamily
    · intro hword
      cases hret hword

namespace Machine

/-- A step opens a call to return behind it, closes the newest call and goes to its return address,
or leaves the stack alone. -/
theorem step_stack_cases (machine : Machine) (input : Input) :
    (∃ executed, machine.executed? input = some executed ∧
        executed.isCall = true ∧ executed.isReturn = false ∧
        (machine.step input).2.state.stack.toList =
          machine.state.stack.toList ++ [machine.state.pc + 2]) ∨
      (∃ executed, machine.executed? input = some executed ∧
        executed.isCall = false ∧ executed.isReturn = true ∧
        machine.state.stack.toList = (machine.step input).2.state.stack.toList ++
          [(machine.step input).2.state.pc]) ∨
      ((∀ executed, machine.executed? input = some executed →
          executed.isCall = false ∧ executed.isReturn = false) ∧
        (machine.step input).2.state.stack = machine.state.stack) := by
  have htransition := machine.transition input
  generalize machine.executed? input = executed, machine.step input = result at htransition ⊢
  cases htransition with
  | halted hhalted => exact .inr (.inr ⟨nofun, rfl⟩)
  | @polled x hrun hwait =>
    refine .inr (.inr ⟨nofun, ?_⟩)
    change (machine.state.poll x input.keyboard).stack = machine.state.stack
    unfold State.poll
    split <;> rfl
  | @executed word after hrun hwait hfetch hleads =>
    rcases hleads.stack_cases with ⟨hcall, hret, hstack⟩ | ⟨hcall, hret, hstack⟩ |
      ⟨hcall, hret, hstack⟩
    · exact .inl ⟨_, rfl, beq_iff_eq.mpr hcall, beq_eq_false_iff_ne.mpr hret, hstack⟩
    · exact .inr (.inl ⟨_, rfl, beq_eq_false_iff_ne.mpr hcall, beq_iff_eq.mpr hret, hstack⟩)
    · refine .inr (.inr ⟨?_, hstack⟩)
      intro executed heq
      cases heq
      exact ⟨beq_eq_false_iff_ne.mpr hcall, beq_eq_false_iff_ne.mpr hret⟩
  | failed hrun hwait hfails => exact .inr (.inr ⟨nofun, rfl⟩)

/-! ## The depth over a run -/

/-- A step that executes a call raises the depth by one, a return lowers it by one, and every other
step keeps it. -/
theorem depth_step (machine : Machine) (input : Input) :
    (machine.step input).2.state.stack.depth +
        (machine.executed? input).toList.countP Executed.isReturn =
      machine.state.stack.depth + (machine.executed? input).toList.countP Executed.isCall := by
  rcases machine.step_stack_cases input with ⟨executed, hexecuted, hcall, hret, hstack⟩ |
    ⟨executed, hexecuted, hcall, hret, hstack⟩ | ⟨hneither, hstack⟩
  · have hdepth := congrArg List.length hstack
    rw [List.length_append, CallStack.length_toList, CallStack.length_toList,
      List.length_singleton] at hdepth
    simp [hexecuted, hcall, hret, hdepth]
  · have hdepth := congrArg List.length hstack
    rw [List.length_append, CallStack.length_toList, CallStack.length_toList,
      List.length_singleton] at hdepth
    simp [hexecuted, hcall, hret, hdepth]
  · rw [hstack]
    rcases hexecuted : machine.executed? input with _ | executed
    · rfl
    · obtain ⟨hcall, hret⟩ := hneither executed hexecuted
      simp [hcall, hret]

/-- How many calls a list of actions executes. -/
def callCount (machine : Machine) (actions : List Action) : Nat :=
  (machine.history actions).countP Executed.isCall

/-- How many returns a list of actions executes. -/
def returnCount (machine : Machine) (actions : List Action) : Nat :=
  (machine.history actions).countP Executed.isReturn

/-- Over a run the depth rises by one with every call and falls by one with every return. -/
theorem depth_add_returnCount (machine : Machine) (actions : List Action) :
    (machine.run actions).state.stack.depth + machine.returnCount actions =
      machine.state.stack.depth + machine.callCount actions := by
  unfold returnCount callCount
  induction actions generalizing machine with
  | nil => rfl
  | cons action rest ih =>
    cases action with
    | step input =>
      have hstep := machine.depth_step input
      have hrest := ih (machine.step input).2
      simp only [run, act, history, List.countP_append]
      omega
    | takeFrame =>
      have hrest := ih machine.takeFrame.2
      have hdepth : machine.takeFrame.2.state.stack.depth = machine.state.stack.depth := by
        rw [takeFrame_snd]
      rw [hdepth] at hrest
      exact hrest

/-! ## The stack below a call -/

/-- An action keeps the oldest return addresses, as long as it leaves at least as many. -/
theorem act_keeps_base {base : List UInt16} {machine : Machine} (action : Action)
    (hbase : base <+: machine.state.stack.toList)
    (hdepth : base.length ≤ (machine.act action).2.state.stack.depth) :
    base <+: (machine.act action).2.state.stack.toList := by
  cases action with
  | takeFrame =>
    change base <+: machine.takeFrame.2.state.stack.toList
    rw [takeFrame_snd]
    exact hbase
  | step input =>
    change base <+: (machine.step input).2.state.stack.toList
    rcases machine.step_stack_cases input with ⟨_, _, _, _, hstack⟩ | ⟨_, _, _, _, hstack⟩ |
      ⟨_, hstack⟩
    · rw [hstack]
      exact hbase.trans (List.prefix_append _ _)
    · -- The address that a return takes off lies above the base.
      rw [hstack] at hbase
      refine List.prefix_of_prefix_length_le hbase (List.prefix_append _ _) ?_
      rw [CallStack.length_toList]
      exact hdepth
    · rw [hstack]
      exact hbase

/-- **A run keeps the oldest return addresses**, as long as the stack is never lower than they
reach. -/
theorem run_keeps_base {base : List UInt16} {machine : Machine} {actions : List Action}
    (hbase : base <+: machine.state.stack.toList)
    (hdepth : ∀ before, before <+: actions →
      base.length ≤ (machine.run before).state.stack.depth) :
    base <+: (machine.run actions).state.stack.toList := by
  induction actions generalizing machine with
  | nil => exact hbase
  | cons action rest ih =>
    have hfirst : [action] <+: action :: rest := List.prefix_append [action] rest
    apply ih (act_keeps_base action hbase (hdepth [action] hfirst))
    intro before hbefore
    exact hdepth (action :: before) ((List.prefix_cons_inj action).mpr hbefore)

/-- A step that takes the top address off a stack goes to that address. -/
theorem step_returns {machine : Machine} {input : Input} {callers : List UInt16} {back : UInt16}
    (hbase : callers ++ [back] <+: machine.state.stack.toList)
    (hdepth : (machine.step input).2.state.stack.depth = callers.length) :
    (∃ executed, machine.executed? input = some executed ∧ executed.op.word = 0x00EE) ∧
      (machine.step input).2.state.pc = back ∧
      (machine.step input).2.state.stack.toList = callers := by
  have hhigh : callers.length + 1 ≤ machine.state.stack.depth := by
    have := hbase.length_le
    rwa [List.length_append, List.length_singleton, CallStack.length_toList] at this
  rcases machine.step_stack_cases input with ⟨_, _, _, _, hstack⟩ |
    ⟨executed, hexecuted, _, hret, hstack⟩ | ⟨_, hstack⟩
  · have hlength := congrArg List.length hstack
    rw [List.length_append, CallStack.length_toList, CallStack.length_toList,
      List.length_singleton] at hlength
    omega
  · rw [hstack] at hbase
    have hlength : (callers ++ [back]).length =
        ((machine.step input).2.state.stack.toList ++
          [(machine.step input).2.state.pc]).length := by
      rw [List.length_append, List.length_append, CallStack.length_toList, hdepth]
      rfl
    obtain ⟨hcallers, hback⟩ := List.append_inj' (hbase.eq_of_length hlength) rfl
    exact ⟨⟨executed, hexecuted, beq_iff_eq.mp hret⟩, (List.singleton_inj.mp hback).symm,
      hcallers.symm⟩
  · rw [hstack] at hdepth
    omega

/-! ## Calls -/

/-- A running machine whose next instruction is a call that the stack has room for. -/
structure Calling (machine : Machine) : Prop where
  /-- The machine runs. -/
  running : machine.status = .running
  /-- Its next instruction is a call. -/
  calls : ∃ word, machine.state.memory.word machine.state.pc = .ok word ∧
    Opcode.family ⟨word⟩ = 0x2
  /-- A slot is free. -/
  room : machine.state.stack.depth < 16

/-- A call succeeds and puts the address behind it onto the stack. -/
theorem Calling.step {machine : Machine} (hcalling : machine.Calling) (input : Input) :
    (machine.step input).1 = .ok () ∧
      (machine.step input).2.state.stack.toList =
        machine.state.stack.toList ++ [machine.state.pc + 2] := by
  obtain ⟨hrunning, ⟨word, hfetch, hfamily⟩, hroom⟩ := hcalling
  have hdecode := (Instruction.decode_eq_call_iff ⟨word⟩ _).mpr ⟨hfamily, rfl⟩
  have htransition := machine.transition input
  generalize machine.executed? input = executed, machine.step input = result at htransition ⊢
  cases htransition with
  | halted hhalted =>
    rw [status, hhalted] at hrunning
    cases hrunning
  | polled hrun hwait =>
    rw [status, hrun, hwait] at hrunning
    cases hrunning
  | executed hrun hwait hfetch' hleads =>
    cases hfetch.symm.trans hfetch'
    rw [hdecode] at hleads
    cases hleads with
    | call target hpush => exact ⟨rfl, CallStack.toList_push hpush⟩
  | failed hrun hwait hfails =>
    rcases State.executeNext_eq_error_iff.mp hfails with ⟨hpc, -⟩ | ⟨word', hfetch', hfault⟩
    · have := Memory.lt_of_word_eq_ok hfetch
      omega
    · cases hfetch.symm.trans hfetch'
      rw [hdecode] at hfault
      obtain ⟨hfull, -⟩ := Option.ite_none_right_eq_some.mp hfault
      rw [State.advanced_stack] at hfull
      omega

/-- **Calls return to their callers.** After any run of a loaded program, the depth of the stack is
the number of calls executed less the number of returns executed, and at most sixteen. When a call
comes next, it succeeds; whatever is done afterwards, the caller's stack and the address behind the
call stay at the bottom of the stack while the stack is higher than it was, and the first step that
brings it back to that height is a return, to the address behind the call and with the caller's
stack. -/
theorem calls_return_to_their_callers {image : List UInt8} {start : Machine}
    (hload : load image = .ok start) (actions : List Action) :
    let machine := start.run actions
    machine.state.stack.depth + start.returnCount actions = start.callCount actions ∧
      machine.state.stack.depth ≤ 16 ∧
      (machine.Calling → ∀ input,
        let called := (machine.step input).2
        (machine.step input).1 = .ok () ∧
          ∀ rest : List Action,
            (∀ before, before <+: rest →
              machine.state.stack.depth < (called.run before).state.stack.depth) →
            machine.state.stack.toList ++ [machine.state.pc + 2] <+:
                (called.run rest).state.stack.toList ∧
              ∀ later,
                let returned := ((called.run rest).step later).2
                returned.state.stack.depth = machine.state.stack.depth →
                (∃ executed, (called.run rest).executed? later = some executed ∧
                    executed.op.word = 0x00EE) ∧
                  returned.state.pc = machine.state.pc + 2 ∧
                  returned.state.stack.toList = machine.state.stack.toList) := by
  intro machine
  refine ⟨?_, machine.state.stack.depth_le, ?_⟩
  · have hcount := start.depth_add_returnCount actions
    obtain ⟨-, -, rfl⟩ := load_eq_ok_iff.mp hload
    change _ = 0 + _ at hcount
    rwa [Nat.zero_add] at hcount
  · intro hcalling input called
    obtain ⟨hok, hstack⟩ := hcalling.step input
    refine ⟨hok, ?_⟩
    intro rest hhigh
    have hbase : machine.state.stack.toList ++ [machine.state.pc + 2] <+:
        (called.run rest).state.stack.toList := by
      apply run_keeps_base (hstack ▸ List.prefix_refl _)
      intro before hbefore
      rw [List.length_append, CallStack.length_toList]
      exact hhigh before hbefore
    refine ⟨hbase, ?_⟩
    intro later returned hdepth
    apply step_returns hbase
    rw [CallStack.length_toList]
    exact hdepth

/-- A program that calls its third instruction, which returns: the call puts `0x202` onto the
stack, and the step after it goes back there. -/
theorem calls_return_to_their_callers_subroutine :
    let image : List UInt8 := [0x22, 0x04, 0x00, 0x00, 0x00, 0xEE]
    let input : Input := { keyboard := Keypad.empty.keyboard }
    let called := ((ofImage image).step input).2
    load image = .ok (ofImage image) ∧ (ofImage image).Calling ∧
      [0x202] <+: called.state.stack.toList ∧
      (called.step input).2.state.stack.depth = 0 ∧ (called.step input).2.state.pc = 0x202 := by
  intro image input called
  have hload : load image = .ok (ofImage image) :=
    load_eq_ok_iff.mpr ⟨by decide, by decide, rfl⟩
  have hevaluated : (ofImage image).state.memory.word 0x200 = .ok 0x2204 ∧
      0 < called.state.stack.depth ∧ (called.step input).2.state.stack.depth = 0 := by
    decide +kernel
  obtain ⟨hfetch, hopen, hreturned⟩ := hevaluated
  have hcalling : (ofImage image).Calling := ⟨rfl, ⟨0x2204, hfetch, by decide⟩, by decide⟩
  obtain ⟨-, -, hcalls⟩ := calls_return_to_their_callers hload []
  obtain ⟨-, hrest⟩ := hcalls hcalling input
  obtain ⟨hstack, hreturns⟩ := hrest [] fun before hbefore => by
    rw [List.prefix_nil.mp hbefore]
    exact hopen
  obtain ⟨-, hback, -⟩ := hreturns input hreturned
  exact ⟨hload, hcalling, hstack, hreturned, hback⟩

end Machine

end Chip8
