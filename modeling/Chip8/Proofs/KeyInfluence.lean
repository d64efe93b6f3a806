import Chip8.Proofs.Halting
import Chip8.Proofs.Keys

/-!
# What the keys have a part in

Every instruction is given the keys, and few look at them.

* `Machine.testedKey?`, `Machine.SameKeysSeen`: two keyboards agree on what the next step of a
  machine looks at.
* `Instruction.execute_congr`: what an instruction does depends on the key that it tests, if it
  tests one, and on the random byte.
* `step_eq_of_sameKeysSeen`, `run_eq_of_sameKeysSeen`: so a step is the same with two such
  keyboards, and a run with two lists of them.
* `Handling`: what a host does with a keypad and a machine; `steps_filter_counts` and
  `run_eq_of_halted` say which of its presses and releases could be left out.
* `only_consulted_keys_matter`: all of this for whole runs.
-/

namespace Chip8

/-- The key that the next instruction tests, if it tests one: the low half of Vx names it. -/
def Machine.testedKey? (machine : Machine) : Option UInt8 := do
  let word ← (machine.state.memory.word machine.state.pc).toOption
  let op : Opcode := ⟨word⟩
  if op.family = 0xE ∧ (op.kk = 0x9E ∨ op.kk = 0xA1) then
    some (machine.state.v.get op.x % 16)
  else
    none

/-- Two keyboards agree on what the next step of a machine looks at. -/
structure Machine.SameKeysSeen (machine : Machine) (first second : Keyboard) : Prop where
  /-- While a key is awaited, the lowest key that is down is the same. -/
  awaited : machine.halted = none → machine.isAwaitingKey = true →
    Keyboard.lowest first.isPressed = Keyboard.lowest second.isPressed
  /-- When the next instruction tests a key, it is down on both or on neither. -/
  tested : machine.status = .running →
    machine.testedKey?.map first.isPressed = machine.testedKey?.map second.isPressed

instance (machine : Machine) (first second : Keyboard) :
    Decidable (machine.SameKeysSeen first second) :=
  decidable_of_iff (_ ∧ _)
    ⟨fun h => ⟨h.1, h.2⟩, fun h => ⟨h.awaited, h.tested⟩⟩

/-! ## One instruction -/

/-- The low half of a byte is its remainder by sixteen. -/
theorem and_fifteen_eq_mod (byte : UInt8) : byte &&& 0xF = byte % 16 := by
  apply UInt8.toNat_inj.mp
  rw [UInt8.toNat_and, UInt8.toNat_mod]
  exact Nat.and_two_pow_sub_one_eq_mod _ 4

namespace Instruction

/-- What an instruction does depends on the key that it tests, if it tests one, and on the random
byte. -/
theorem execute_congr {state : State} {first second : Input} {instruction : Instruction}
    (hchance : first.chance = second.chance)
    (hkeys : ∀ x, instruction = .skip (.keyDown x) ∨ instruction = .skip (.keyUp x) →
      first.keyboard.isPressed (state.v.get x &&& 0xF) =
        second.keyboard.isPressed (state.v.get x &&& 0xF)) :
    instruction.execute state first = instruction.execute state second := by
  cases instruction with
  | skip condition =>
    have hholds : condition.holds state first.keyboard =
        condition.holds state second.keyboard := by
      cases condition with
      | keyDown x => exact hkeys x (.inl rfl)
      | keyUp x => exact congrArg (! ·) (hkeys x (.inr rfl))
      | _ => rfl
    rw [execute, execute, hholds]
  | random x mask => rw [execute, execute, hchance]
  | _ => rfl

/-- An instruction that tests a key is one of two in family E. -/
theorem digits_of_tests_key {op : Opcode} {x : Register}
    (htests : decode op = .skip (.keyDown x) ∨ decode op = .skip (.keyUp x)) :
    op.family = 0xE ∧ (op.kk = 0x9E ∨ op.kk = 0xA1) ∧ x = op.x := by
  have hrow := decodes op
  rcases htests with htests | htests
  · rw [htests] at hrow
    cases hrow with
    | skipKeyDown hfamily hkk => exact ⟨hfamily, .inl hkk, rfl⟩
  · rw [htests] at hrow
    cases hrow with
    | skipKeyUp hfamily hkk => exact ⟨hfamily, .inr hkk, rfl⟩

end Instruction

namespace Machine

/-! ## Steps and runs -/

/-- **A step is the same with keyboards that agree on what it looks at.** -/
theorem step_eq_of_sameKeysSeen {machine : Machine} {first second : Input}
    (hchance : first.chance = second.chance) (hfirst : first.keyboard.PicksLowest)
    (hsecond : second.keyboard.PicksLowest)
    (hseen : machine.SameKeysSeen first.keyboard second.keyboard) :
    machine.step first = machine.step second := by
  rcases hrun : machine.halted with _ | fault
  · rcases hwait : machine.state.awaiting with _ | x
    · have hnext : machine.state.executeNext first = machine.state.executeNext second := by
        unfold State.executeNext
        rcases hfetch : machine.state.memory.word machine.state.pc with fault | word
        · rfl
        · apply Instruction.execute_congr hchance
          intro x htests
          obtain ⟨hfamily, hkk, rfl⟩ := Instruction.digits_of_tests_key htests
          have hkey : machine.testedKey? =
              some (machine.state.v.get (Opcode.x ⟨word⟩) % 16) := by
            rw [testedKey?, hfetch]
            exact if_pos ⟨hfamily, hkk⟩
          have htested := hseen.tested (status_eq_running_iff.mpr ⟨hrun, hwait⟩)
          rw [hkey, Option.map_some, Option.map_some, Option.some.injEq] at htested
          rw [and_fifteen_eq_mod]
          exact htested
      rw [step, step, hrun, hwait, hnext]
    · have hlowest := hseen.awaited hrun (by rw [isAwaitingKey, hwait]; rfl)
      have hkey : first.keyboard.pressedKey = second.keyboard.pressedKey := by
        rw [hfirst, hsecond, hlowest]
      rw [step_of_awaiting hrun hwait, step_of_awaiting hrun hwait, State.poll, State.poll, hkey]
  · rw [step_of_halted hrun, step_of_halted hrun]

/-- **A run is the same with keyboards that agree, at each of its steps, on what that step looks
at.** -/
theorem run_eq_of_sameKeysSeen {machine : Machine} {first second : List Input}
    (hchance : first.map Input.chance = second.map Input.chance)
    (hfirst : ∀ input ∈ first, input.keyboard.PicksLowest)
    (hsecond : ∀ input ∈ second, input.keyboard.PicksLowest)
    (hseen : ∀ k (hk : k < first.length) (hk' : k < second.length),
      (machine.run ((first.take k).map .step)).SameKeysSeen first[k].keyboard second[k].keyboard) :
    machine.answers (first.map .step) = machine.answers (second.map .step) ∧
      machine.run (first.map .step) = machine.run (second.map .step) := by
  induction first generalizing machine second with
  | nil =>
    cases List.map_eq_nil_iff.mp hchance.symm
    exact ⟨rfl, rfl⟩
  | cons input rest ih =>
    obtain ⟨other, others, rfl, hother, hothers⟩ := List.map_eq_cons_iff.mp hchance.symm
    have hstep : machine.step input = machine.step other := by
      apply step_eq_of_sameKeysSeen hother.symm
      · exact hfirst input List.mem_cons_self
      · exact hsecond other List.mem_cons_self
      · exact hseen 0 (Nat.succ_pos _) (Nat.succ_pos _)
    have hact : machine.act (.step input) = machine.act (.step other) := by
      rw [act, act, hstep]
    have hrest : ∀ k (hk : k < rest.length) (hk' : k < others.length),
        ((machine.act (.step input)).2.run ((rest.take k).map .step)).SameKeysSeen
          rest[k].keyboard others[k].keyboard :=
      fun k hk hk' => hseen (k + 1) (Nat.succ_lt_succ hk) (Nat.succ_lt_succ hk')
    obtain ⟨hanswers, hrun⟩ := ih hothers.symm
      (fun next hmem => hfirst next (List.mem_cons_of_mem _ hmem))
      (fun next hmem => hsecond next (List.mem_cons_of_mem _ hmem)) hrest
    rw [List.map_cons, List.map_cons, answers, answers, run, run, hanswers, hrun, hact]
    exact ⟨rfl, rfl⟩

end Machine

/-! ## A keypad and a machine -/

/-- What a host does with a keypad and a machine. -/
inductive Handling
  /-- A key goes down. -/
  | press (key : UInt8)
  /-- A key goes up. -/
  | release (key : UInt8)
  /-- The machine makes a step, with the keys that are down and a random byte. -/
  | step (chance : UInt8)

namespace Handling

/-- Whether the machine makes a step. -/
def isStep : Handling → Bool
  | step _ => true
  | press _ | release _ => false

/-- Whether it is a step, or a press or a release of one of the sixteen keys. -/
def counts : Handling → Bool
  | step _ => true
  | press key | release key => decide (key < 16)

/-- The keypad afterwards. -/
def leave (keypad : Keypad) : Handling → Keypad
  | step _ => keypad
  | press key => keypad.press key
  | release key => keypad.release key

/-- What the step is given, if the machine makes one. -/
def input? (keypad : Keypad) : Handling → Option Input
  | step chance => some { keyboard := keypad.keyboard, chance }
  | press _ | release _ => none

/-- What the steps are given, one after the other. -/
def inputs (keypad : Keypad) : List Handling → List Input
  | [] => []
  | handling :: rest => (handling.input? keypad).toList ++ inputs (leave keypad handling) rest

/-- The steps that the machine makes. -/
def steps (keypad : Keypad) (handlings : List Handling) : List Action :=
  (inputs keypad handlings).map .step

/-- In two parts, the second begins with the keypad that the first one leaves. -/
theorem steps_append (keypad : Keypad) (first second : List Handling) :
    steps keypad (first ++ second) =
      steps keypad first ++ steps (first.foldl leave keypad) second := by
  unfold steps
  rw [← List.map_append]
  congr 1
  induction first generalizing keypad with
  | nil => rfl
  | cons handling rest ih => rw [List.cons_append, inputs, inputs, ih, List.append_assoc]; rfl

/-- Numbers above fifteen do nothing. -/
theorem leave_of_not_counts (keypad : Keypad) {handling : Handling} (h : ¬handling.counts = true) :
    leave keypad handling = keypad ∧ handling.input? keypad = none := by
  cases handling with
  | step chance => exact absurd rfl h
  | press key =>
    have hkey : 16 ≤ key := by simpa [counts] using h
    exact ⟨keypad.press_of_le hkey, rfl⟩
  | release key =>
    have hkey : 16 ≤ key := by simpa [counts] using h
    exact ⟨keypad.release_of_le hkey, rfl⟩

/-- **Numbers above fifteen can be left out.** -/
theorem steps_filter_counts (keypad : Keypad) (handlings : List Handling) :
    steps keypad (handlings.filter counts) = steps keypad handlings := by
  unfold steps
  congr 1
  induction handlings generalizing keypad with
  | nil => rfl
  | cons handling rest ih =>
    rw [List.filter_cons]
    split_ifs with hcounts
    · rw [inputs, inputs, ih]
    · obtain ⟨hsame, hnone⟩ := leave_of_not_counts keypad hcounts
      rw [ih, inputs, hsame, hnone]
      rfl

/-- Without presses and releases as many steps are made, whatever keys were down at first. -/
theorem length_inputs_filter_isStep (keypad other : Keypad) (handlings : List Handling) :
    (inputs keypad (handlings.filter isStep)).length = (inputs other handlings).length := by
  induction handlings generalizing keypad other with
  | nil => rfl
  | cons handling rest ih =>
    cases handling with
    | step chance => exact congrArg (· + 1) (ih keypad other)
    | press key | release key => exact ih keypad _

/-- **Once the machine is halted, all presses and releases can be left out.** -/
theorem run_eq_of_halted {machine : Machine} {keypad : Keypad} {before : List Handling}
    (hhalted : (machine.run (steps keypad before)).isHalted = true) (after : List Handling) :
    machine.answers (steps keypad (before ++ after.filter isStep)) =
        machine.answers (steps keypad (before ++ after)) ∧
      machine.run (steps keypad (before ++ after.filter isStep)) =
        machine.run (steps keypad (before ++ after)) := by
  obtain ⟨fault, hfault⟩ := Option.isSome_iff_exists.mp hhalted
  have hlater (handlings : List Handling) :=
    Machine.steps_of_halted hfault (inputs (before.foldl leave keypad) handlings)
  obtain ⟨hanswers, hrun⟩ := hlater after
  obtain ⟨hanswers', hrun'⟩ := hlater (after.filter isStep)
  rw [length_inputs_filter_isStep _ (before.foldl leave keypad), ← hanswers] at hanswers'
  simp only [steps_append, Machine.answers_append, Machine.run_append]
  exact ⟨congrArg (_ ++ ·) hanswers', hrun'.trans hrun.symm⟩

end Handling

/-- **Only the keys that are looked at matter.** Two lists of steps with the same random bytes, from
one machine and with keyboards that end a wait with the lowest key that is down, have the same
results and lead to the same machine if at each step of the first run the two keyboards agree on
what the step looks at: the lowest key that is down while a key is awaited, the key named by the low
half of Vx when the instruction is one of the two that test it, and nothing otherwise. So, when a
host puts keys of a keypad down, lets them go and steps the machine, it makes no difference to
results and machine if all numbers above fifteen are left out, nor if all keys are left out once the
machine is halted. -/
theorem only_consulted_keys_matter (machine : Machine) :
    (∀ first second : List Input, first.map Input.chance = second.map Input.chance →
      (∀ input ∈ first, input.keyboard.PicksLowest) →
      (∀ input ∈ second, input.keyboard.PicksLowest) →
      (∀ k (hk : k < first.length) (hk' : k < second.length),
        (machine.run ((first.take k).map .step)).SameKeysSeen first[k].keyboard
          second[k].keyboard) →
      machine.answers (first.map .step) = machine.answers (second.map .step) ∧
        machine.run (first.map .step) = machine.run (second.map .step)) ∧
      (∀ (keypad : Keypad) (handlings : List Handling),
        let all := Handling.steps keypad handlings
        let kept := Handling.steps keypad (handlings.filter Handling.counts)
        machine.answers kept = machine.answers all ∧ machine.run kept = machine.run all) ∧
      ∀ (keypad : Keypad) (before after : List Handling),
        (machine.run (Handling.steps keypad before)).isHalted = true →
        let all := Handling.steps keypad (before ++ after)
        let kept := Handling.steps keypad (before ++ after.filter Handling.isStep)
        machine.answers kept = machine.answers all ∧ machine.run kept = machine.run all := by
  refine ⟨?_, ?_, ?_⟩
  · intro first second hchance hfirst hsecond hseen
    exact Machine.run_eq_of_sameKeysSeen hchance hfirst hsecond hseen
  · intro keypad handlings all kept
    have hsame : kept = all := Handling.steps_filter_counts keypad handlings
    exact ⟨congrArg machine.answers hsame, congrArg machine.run hsame⟩
  · intro keypad before after hhalted
    exact Handling.run_eq_of_halted hhalted after

/-- A program that tests the key 0, awaits a key and then returns without a call. Its five steps are
the same on two keypads that agree on the key 0 at the first step and on the lowest key at the
third, where the wait goes on, and otherwise have nothing in common. And 200 put down before the
first step makes no difference, nor does the key 3 put down once the machine is halted. -/
theorem only_consulted_keys_matter_test_then_wait :
    let machine := Machine.ofImage [0xE1, 0x9E, 0x00, 0xEE, 0xF2, 0x0A, 0x00, 0xEE]
    let inputs (keypads : List Keypad) : List Input :=
      keypads.map fun keypad => { keyboard := keypad.keyboard }
    let none := Keypad.empty
    let first := inputs [none.press 0, none, none.press 7, none, none]
    let second := inputs
      [(none.press 0).press 5, none.press 1, (none.press 9).press 7, none.press 2, none.press 4]
    let before : List Handling := [.press 200, .press 0, .step 0, .step 0, .step 0, .step 0]
    let after : List Handling := [.press 3, .step 0]
    (machine.run (first.map .step)).state.v.get 2 = 7 ∧
      (machine.run (first.map .step)).status = .halted (.stackUnderflow 0x206) ∧
      machine.run (first.map .step) = machine.run (second.map .step) ∧
      machine.run (Handling.steps none (before.filter Handling.counts)) =
        machine.run (Handling.steps none before) ∧
      (machine.run (Handling.steps none before)).isHalted = true ∧
      machine.run (Handling.steps none (before ++ [.step 0])) =
        machine.run (Handling.steps none (before ++ after)) := by
  intro machine inputs none first second before after
  have hpicks (keypads : List Keypad) :
      ∀ input ∈ inputs keypads, input.keyboard.PicksLowest := by
    intro input hmem
    obtain ⟨keypad, -, rfl⟩ := List.mem_map.mp hmem
    exact keypad.picksLowest_keyboard
  have hevaluated : (machine.run (first.map .step)).state.v.get 2 = 7 ∧
      (machine.run (first.map .step)).status = .halted (.stackUnderflow 0x206) ∧
      (machine.run (Handling.steps none before)).isHalted = true ∧
      ∀ k (hk : k < 5) (hk' : k < 5),
        (machine.run ((first.take k).map .step)).SameKeysSeen (first.get ⟨k, hk⟩).keyboard
          (second.get ⟨k, hk'⟩).keyboard := by
    decide +kernel
  obtain ⟨hkey, hstatus, hhalted, hseen⟩ := hevaluated
  obtain ⟨hagree, hcounts, hdrop⟩ := only_consulted_keys_matter machine
  have hchance : first.map Input.chance = second.map Input.chance := by
    simp [first, second, inputs]
  have hstep : after.filter Handling.isStep = [.step 0] := rfl
  have hdropped : machine.run (Handling.steps none (before ++ after.filter Handling.isStep)) =
      machine.run (Handling.steps none (before ++ after)) :=
    (hdrop none before after hhalted).2
  rw [hstep] at hdropped
  exact ⟨hkey, hstatus, (hagree first second hchance (hpicks _) (hpicks _) hseen).2,
    (hcounts none before).2, hhalted, hdropped⟩

end Chip8
