import Chip8.Proofs.Halting
import Chip8.Proofs.Invariant
import Chip8.Proofs.Provenance
import Mathlib.Logic.Function.Iterate

/-!
# Running off the program

The rest of memory behind a program is zero, and a word of zeros is an instruction that does
nothing. So a program that runs off its end goes on, word by word, until there is no further word in
memory.

* `State.ZerosAhead`: memory is zero from the program counter to its end.
* `State.wordsAhead`, `State.passed`: the words of memory from the program counter on, and the state
  after an instruction that does nothing.
* `step_of_zerosAhead`, `run_of_zerosAhead`: while there is a word ahead, a step passes it, and so
  does every step of a run.
* `step_of_no_wordsAhead`: when there is none, a step fails and passes nothing.
* `running_off_halts_behind_the_last_word`: the two together, for runs of any length.
-/

namespace Chip8

namespace State

/-- Whether memory is zero from the program counter to its end. -/
def ZerosAhead (state : State) : Prop :=
  ∀ address : Address, state.pc.toNat ≤ address.val → state.memory.bytes.get address = 0

/-- The number of words from the program counter to the end of memory. -/
def wordsAhead (state : State) : Nat :=
  (0x1000 - state.pc.toNat) / 2

/-- The state after an instruction that does nothing: the program counter is past it, and the timers
have beaten. -/
def passed (state : State) : State :=
  state.advanced.tick

variable {state : State}

/-! ## One word -/

/-- The word at the program counter is zero. -/
theorem word_of_zerosAhead (hzero : state.ZerosAhead) (hin : state.pc.toNat + 1 < 4096) :
    state.memory.word state.pc = .ok 0 := by
  have hfirst : state.memory.bytes[state.pc.toNat] = 0 :=
    hzero ⟨state.pc.toNat, by omega⟩ (Nat.le_refl _)
  have hsecond : state.memory.bytes[state.pc.toNat + 1] = 0 :=
    hzero ⟨state.pc.toNat + 1, hin⟩ (Nat.le_succ _)
  rw [Memory.word, dif_pos hin, hfirst, hsecond]
  rfl

/-- An instruction of zeros only advances the program counter. -/
theorem executeNext_of_zerosAhead (hzero : state.ZerosAhead) (hin : state.pc.toNat + 1 < 4096)
    (input : Input) : state.executeNext input = .ok state.advanced := by
  rw [executeNext_eq_ok_iff]
  exact ⟨0, word_of_zerosAhead hzero hin, rfl⟩

/-- Passing a word advances the program counter by two. -/
theorem toNat_pc_passed (hin : state.pc.toNat + 1 < 4096) :
    state.passed.pc.toNat = state.pc.toNat + 2 :=
  Instruction.toNat_add_two hin

/-- Behind a word that was passed memory is still zero. -/
theorem ZerosAhead.passed (hzero : state.ZerosAhead) (hin : state.pc.toNat + 1 < 4096) :
    state.passed.ZerosAhead := by
  intro address hle
  rw [toNat_pc_passed hin] at hle
  exact hzero address (by omega)

/-- Passing words changes the program counter and the timers only. -/
theorem iterate_passed_eq (count : Nat) :
    State.passed^[count] state =
      { state with
        pc := (State.passed^[count] state).pc
        delay := (State.passed^[count] state).delay
        sound := (State.passed^[count] state).sound } := by
  induction count with
  | zero => rfl
  | succ count ih =>
    rw [Function.iterate_succ_apply', ih]
    rfl

/-- Passing words that are in memory advances the program counter by two for each. -/
theorem toNat_pc_iterate_passed {count : Nat} (hcount : count ≤ state.wordsAhead) :
    (State.passed^[count] state).pc.toNat = state.pc.toNat + 2 * count := by
  unfold wordsAhead at hcount
  induction count with
  | zero => rfl
  | succ count ih =>
    have hbefore := ih (by omega)
    rw [Function.iterate_succ_apply', toNat_pc_passed (by omega), hbefore]
    omega

/-- Passing words takes a beat off the timers for each, down to zero. -/
theorem toNat_timers_iterate_passed (count : Nat) :
    (State.passed^[count] state).delay.toNat = state.delay.toNat - count ∧
      (State.passed^[count] state).sound.toNat = state.sound.toNat - count := by
  induction count with
  | zero => exact ⟨rfl, rfl⟩
  | succ count ih =>
    obtain ⟨hdelay, hsound⟩ := ih
    rw [Function.iterate_succ_apply', Nat.sub_add_eq, Nat.sub_add_eq, ← hdelay, ← hsound]
    exact ⟨toNat_countDown _, toNat_countDown _⟩

end State

namespace Machine

variable {machine : Machine}

/-- While there is a word ahead, a step passes it. -/
theorem step_of_zerosAhead (hrunning : machine.status = .running)
    (hzero : machine.state.ZerosAhead) (hahead : 0 < machine.state.wordsAhead) (input : Input) :
    machine.step input = (.ok (), { machine with state := machine.state.passed }) := by
  obtain ⟨hrun, hwait⟩ := status_eq_running_iff.mp hrunning
  have hin : machine.state.pc.toNat + 1 < 4096 := by
    unfold State.wordsAhead at hahead
    omega
  exact step_of_ok hrun hwait (State.executeNext_of_zerosAhead hzero hin input)

/-- When there is none, a step fails at the end of memory. -/
theorem step_of_no_wordsAhead (hrunning : machine.status = .running)
    (hpc : machine.state.pc.toNat ≤ 0x1000) (hnone : machine.state.wordsAhead = 0)
    (input : Input) :
    machine.step input = (.error (.memoryOutOfBounds 0x1000),
      { machine with halted := some (.memoryOutOfBounds 0x1000) }) := by
  obtain ⟨hrun, hwait⟩ := status_eq_running_iff.mp hrunning
  have hend : 0xFFF ≤ machine.state.pc.toNat := by
    unfold State.wordsAhead at hnone
    omega
  have hplace : max machine.state.pc.toNat 4096 = 0x1000 := by omega
  have hfails : machine.state.executeNext input = .error (.memoryOutOfBounds 0x1000) := by
    rw [State.executeNext_eq_error_iff, Memory.outOfBounds, hplace]
    exact .inl ⟨hend, rfl⟩
  exact step_of_error hrun hwait hfails

/-- **While there are words ahead, a run passes one in each step.** -/
theorem run_of_zerosAhead (hrunning : machine.status = .running)
    (hzero : machine.state.ZerosAhead) {inputs : List Input}
    (hlength : inputs.length ≤ machine.state.wordsAhead) :
    machine.answers (inputs.map .step) = List.replicate inputs.length (.stepped (.ok ())) ∧
      machine.run (inputs.map .step) =
        { machine with state := State.passed^[inputs.length] machine.state } := by
  induction inputs generalizing machine with
  | nil => exact ⟨rfl, rfl⟩
  | cons input rest ih =>
    rw [List.length_cons] at hlength
    have hin : machine.state.pc.toNat + 1 < 4096 := by
      unfold State.wordsAhead at hlength
      omega
    have hact : machine.act (.step input) =
        (.stepped (.ok ()), { machine with state := machine.state.passed }) := by
      rw [act, step_of_zerosAhead hrunning hzero (by omega)]
    have hrest : rest.length ≤ machine.state.passed.wordsAhead := by
      unfold State.wordsAhead at hlength ⊢
      rw [State.toNat_pc_passed hin]
      omega
    let next : Machine := { machine with state := machine.state.passed }
    have hstill : next.status = .running := hrunning
    obtain ⟨hanswers, hrun⟩ := ih hstill (hzero.passed hin) hrest
    rw [List.map_cons, answers, run, hact, hanswers, hrun, List.length_cons, List.replicate_succ]
    exact ⟨rfl, rfl⟩

/-- **Behind the last word every step fails alike.** -/
theorem run_of_no_wordsAhead (hrunning : machine.status = .running)
    (hpc : machine.state.pc.toNat ≤ 0x1000) (hnone : machine.state.wordsAhead = 0)
    (inputs : List Input) :
    machine.answers (inputs.map .step) =
        List.replicate inputs.length (.stepped (.error (.memoryOutOfBounds 0x1000))) ∧
      machine.run (inputs.map .step) =
        { machine with
          halted := if inputs = [] then none else some (.memoryOutOfBounds 0x1000) } := by
  cases inputs with
  | nil =>
    have hrun := (status_eq_running_iff.mp hrunning).1
    rw [if_pos rfl, ← hrun]
    exact ⟨rfl, rfl⟩
  | cons input rest =>
    have hact : machine.act (.step input) = (.stepped (.error (.memoryOutOfBounds 0x1000)),
        { machine with halted := some (.memoryOutOfBounds 0x1000) }) := by
      rw [act, step_of_no_wordsAhead hrunning hpc hnone]
    let next : Machine := { machine with halted := some (.memoryOutOfBounds 0x1000) }
    have hhalted : next.halted = some (.memoryOutOfBounds 0x1000) := rfl
    obtain ⟨hanswers, hrun⟩ := steps_of_halted hhalted rest
    rw [List.map_cons, answers, run, hact, hanswers, hrun, List.length_cons, List.replicate_succ,
      if_neg (List.cons_ne_nil input rest)]
    exact ⟨rfl, rfl⟩

/-- **A run passes the words ahead, and then every step fails.** -/
theorem run_off (hrunning : machine.status = .running) (hpc : machine.state.pc.toNat ≤ 0x1000)
    (hzero : machine.state.ZerosAhead) (inputs : List Input) :
    let words := machine.state.wordsAhead
    let passed := min words inputs.length
    machine.answers (inputs.map .step) =
        List.replicate passed (.stepped (.ok ())) ++
          List.replicate (inputs.length - words)
            (.stepped (.error (.memoryOutOfBounds 0x1000))) ∧
      machine.run (inputs.map .step) =
        { machine with
          state := State.passed^[passed] machine.state
          halted := if inputs.length ≤ words then none else some (.memoryOutOfBounds 0x1000) } := by
  intro words passed
  -- The steps up to the last word, and those behind it.
  have hparts : inputs.map Action.step =
      (inputs.take words).map .step ++ (inputs.drop words).map .step := by
    rw [← List.map_append, List.take_append_drop]
  have hfirst : (inputs.take words).length = passed := List.length_take
  have hpassed : passed ≤ machine.state.wordsAhead := Nat.min_le_left words inputs.length
  obtain ⟨hanswers, hrun⟩ := run_of_zerosAhead hrunning hzero (hfirst.symm ▸ hpassed)
  rw [hparts, answers_append, run_append, hanswers, hrun, hfirst]
  by_cases hlength : inputs.length ≤ words
  · rw [List.drop_eq_nil_of_le hlength, Nat.sub_eq_zero_of_le hlength, if_pos hlength,
      ← (status_eq_running_iff.mp hrunning).1]
    exact ⟨rfl, rfl⟩
  · let middle : Machine := { machine with state := State.passed^[passed] machine.state }
    have hall : passed = words := Nat.min_eq_left (Nat.le_of_not_le hlength)
    have hwhere : middle.state.pc.toNat = machine.state.pc.toNat + 2 * passed :=
      State.toNat_pc_iterate_passed hpassed
    have hmiddle : middle.status = .running := by
      obtain ⟨hrun, hwait⟩ := status_eq_running_iff.mp hrunning
      refine status_eq_running_iff.mpr ⟨hrun, ?_⟩
      show (State.passed^[passed] machine.state).awaiting = none
      rw [State.iterate_passed_eq]
      exact hwait
    have hend : middle.state.pc.toNat ≤ 0x1000 ∧ middle.state.wordsAhead = 0 := by
      have hwords : words = (0x1000 - machine.state.pc.toNat) / 2 := rfl
      unfold State.wordsAhead
      omega
    obtain ⟨hfail, hlast⟩ := run_of_no_wordsAhead hmiddle hend.1 hend.2 (inputs.drop words)
    rw [hfail, hlast, List.length_drop, if_neg hlength, if_neg]
    · exact ⟨rfl, rfl⟩
    · rw [List.drop_eq_nil_iff]
      exact hlength

/-- **Running off the program halts behind the last word.** From a machine that runs, with memory
zero from the program counter to its end, as many steps succeed as there are whole words from
there on, whatever the keys and the chance, and every step after them fails at the end of memory. A
step that succeeds takes the program counter past one word and a beat off each timer; nothing else
is changed, and a step that fails changes nothing but that the machine is halted. So the program
counter ends at the end of memory or, if it was odd, on the last byte. -/
theorem running_off_halts_behind_the_last_word (hrunning : machine.status = .running)
    (hpc : machine.state.pc.toNat ≤ 0x1000) (hzero : machine.state.ZerosAhead)
    (inputs : List Input) :
    let words := (0x1000 - machine.state.pc.toNat) / 2
    let passed := min words inputs.length
    let after := machine.run (inputs.map .step)
    machine.answers (inputs.map .step) =
        List.replicate passed (.stepped (.ok ())) ++
          List.replicate (inputs.length - words)
            (.stepped (.error (.memoryOutOfBounds 0x1000))) ∧
      after =
        { machine with
          state := { machine.state with
            pc := after.state.pc, delay := after.state.delay, sound := after.state.sound }
          halted := if inputs.length ≤ words then none else some (.memoryOutOfBounds 0x1000) } ∧
      after.state.pc.toNat = machine.state.pc.toNat + 2 * passed ∧
      after.state.delay.toNat = machine.state.delay.toNat - passed ∧
      after.state.sound.toNat = machine.state.sound.toNat - passed ∧
      (words < inputs.length →
        after.state.pc.toNat = if machine.state.pc.toNat % 2 = 0 then 0x1000 else 0xFFF) := by
  intro words passed after
  obtain ⟨hanswers, hrun⟩ := run_off hrunning hpc hzero inputs
  have hpassed : passed ≤ machine.state.wordsAhead := Nat.min_le_left words inputs.length
  have hstate : after.state = State.passed^[passed] machine.state := congrArg Machine.state hrun
  have hcounter : after.state.pc.toNat = machine.state.pc.toNat + 2 * passed := by
    rw [hstate, State.toNat_pc_iterate_passed hpassed]
  obtain ⟨hdelay, hsound⟩ := @State.toNat_timers_iterate_passed machine.state passed
  rw [← hstate] at hdelay hsound
  refine ⟨hanswers, ?_, hcounter, hdelay, hsound, ?_⟩
  · rw [hstate, ← State.iterate_passed_eq]
    exact hrun
  · intro hlonger
    have hall : passed = words := Nat.min_eq_left (Nat.le_of_lt hlonger)
    rw [hcounter, hall]
    split <;> omega

/-- A program that sets the delay timer and jumps to the odd address `FF9`. Three words are passed
there, whatever keys are down, and the fourth step fails on the last byte of memory. -/
theorem running_off_halts_behind_the_last_word_odd :
    let idle : Input := { keyboard := Keypad.empty.keyboard }
    let pressing : Input := { keyboard := (Keypad.empty.press 7).keyboard }
    let image : List UInt8 := [0x60, 0x09, 0xF0, 0x15, 0x1F, 0xF9]
    let machine := (ofImage image).run (List.replicate 3 (.step idle))
    let after := machine.run ([idle, pressing, idle, pressing].map .step)
    machine.status = .running ∧ machine.state.pc.toNat ≤ 0x1000 ∧ machine.state.ZerosAhead ∧
      machine.answers ([idle, pressing, idle, pressing].map .step) =
        [.stepped (.ok ()), .stepped (.ok ()), .stepped (.ok ()),
          .stepped (.error (.memoryOutOfBounds 0x1000))] ∧
      after.halted = some (.memoryOutOfBounds 0x1000) ∧
      after.state.pc.toNat = 0xFFF ∧ after.state.delay.toNat = 4 := by
  intro idle pressing image machine after
  have hevaluated : machine.status = .running ∧ machine.state.pc.toNat = 0xFF9 ∧
      machine.state.delay.toNat = 7 ∧
      ∀ executed ∈ (ofImage image).history (List.replicate 3 (.step idle)),
        executed.op.kk ≠ 0x33 ∧ executed.op.kk ≠ 0x55 := by
    decide +kernel
  obtain ⟨hrunning, hplace, hset, hstores⟩ := hevaluated
  have hpc : machine.state.pc.toNat ≤ 0x1000 := by omega
  have hzero : machine.state.ZerosAhead := by
    intro address hle
    have hbehind : ¬address.val < 0x206 := by omega
    show ((ofImage image).run _).state.memory.bytes.get address = 0
    rw [memory_run, Executed.foldl_leave_of_not_covered, memory_ofImage, loadedByte,
      if_neg (fun h => hbehind h.2), if_neg (by omega)]
    rintro executed hmem ⟨-, -, ⟨hkk, -⟩ | ⟨hkk, -⟩⟩
    · exact (hstores executed hmem).1 hkk
    · exact (hstores executed hmem).2 hkk
  obtain ⟨hanswers, hafter, hcounter, hdelay, -⟩ :=
    running_off_halts_behind_the_last_word hrunning hpc hzero [idle, pressing, idle, pressing]
  rw [hplace] at hanswers hafter hcounter hdelay
  refine ⟨hrunning, hpc, hzero, hanswers, congrArg Machine.halted hafter, hcounter, ?_⟩
  rw [hset] at hdelay
  exact hdelay

end Machine

end Chip8
