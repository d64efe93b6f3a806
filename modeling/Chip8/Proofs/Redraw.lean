import Chip8.Proofs.Decoding
import Chip8.Proofs.Runs

/-!
# The mark that the screen is due

A machine marks its screen as due when it draws on it or clears it, and taking the screen wipes the
mark off.

* `Machine.draws`: whether a step executes an instruction that draws or clears, said on its opcode.
* `redraw_step`, `screen_step`: exactly these steps mark the screen, and no others change it.
* `Machine.unmarked`: the machine without the mark, which is also the machine after a frame is
  taken.
* `step_unmarked`, `step_unmarked_snd`: the mark has no part in what a step does, so that taking
  frames is of no consequence to the program.
-/

namespace Chip8

/-- Whether an instruction drew on the screen or cleared it. -/
def Executed.draws (executed : Executed) : Bool :=
  executed.op.word == 0x00E0 || executed.op.family == 0xD

/-! ## What changes the screen -/

/-- An instruction draws on the screen or clears it, and marks it, or leaves screen and mark
alone. -/
theorem Instruction.Leads.screen_cases {state after : State} {input : Input} {op : Opcode}
    (hleads : (decode op).Leads state input after) :
    ((op.word = 0x00E0 ∨ op.family = 0xD) ∧ after.redraw = true) ∨
      (¬(op.word = 0x00E0 ∨ op.family = 0xD) ∧
        after.redraw = state.redraw ∧ after.screen = state.screen) := by
  have hclear : op.word = 0x00E0 → decode op = .clear := (decode_eq_clear_iff op).mpr
  have hdraw : op.family = 0xD → decode op = .draw op.x op.y op.n := decode_of_family_D
  have hrow := decodes op
  generalize hdecode : decode op = instruction at hleads hclear hdraw hrow
  cases hleads with
  | clear => exact .inl ⟨.inl ((decode_eq_clear_iff op).mp hdecode), rfl⟩
  | draw x y hread =>
    cases hrow with
    | draw hfamily => exact .inl ⟨.inr hfamily, rfl⟩
  | combine operation x y =>
    refine .inr ⟨?_, ?_⟩
    · rintro (hword | hfamily)
      · cases hclear hword
      · cases hdraw hfamily
    · rw [State.combine_eq]
      exact ⟨rfl, rfl⟩
  | _ =>
    refine .inr ⟨?_, rfl, rfl⟩
    rintro (hword | hfamily)
    · cases hclear hword
    · cases hdraw hfamily

namespace Machine

/-- Whether a step executes an instruction that draws on the screen or clears it. -/
def draws (machine : Machine) (input : Input) : Bool :=
  (machine.executed? input).any Executed.draws

/-- A step draws on the screen or clears it, and marks it, or leaves screen and mark alone. -/
theorem step_screen_cases (machine : Machine) (input : Input) :
    (machine.draws input = true ∧ (machine.step input).2.state.redraw = true) ∨
      (machine.draws input = false ∧
        (machine.step input).2.state.redraw = machine.state.redraw ∧
        (machine.step input).2.state.screen = machine.state.screen) := by
  have htransition := machine.transition input
  unfold draws
  generalize machine.executed? input = executed, machine.step input = result at htransition ⊢
  cases htransition with
  | halted hhalted => exact .inr ⟨rfl, rfl, rfl⟩
  | @polled x hrun hwait =>
    refine .inr ⟨rfl, ?_⟩
    unfold State.poll
    split
    · exact ⟨rfl, rfl⟩
    · exact ⟨rfl, rfl⟩
  | @executed word after hrun hwait hfetch hleads =>
    have hdraws : Executed.draws { before := machine.state, op := ⟨word⟩ } = true ↔
        word = 0x00E0 ∨ Opcode.family ⟨word⟩ = 0xD := by
      simp only [Executed.draws, Bool.or_eq_true, beq_iff_eq]
    rcases hleads.screen_cases with ⟨hdrawing, hredraw⟩ | ⟨hother, hredraw, hscreen⟩
    · exact .inl ⟨hdraws.mpr hdrawing, hredraw⟩
    · exact .inr ⟨Bool.eq_false_iff.mpr (mt hdraws.mp hother), hredraw, hscreen⟩
  | failed hrun hwait hfails => exact .inr ⟨rfl, rfl, rfl⟩

/-- After a step the screen is due if it was due before or the step drew on it or cleared it. -/
theorem redraw_step (machine : Machine) (input : Input) :
    (machine.step input).2.state.redraw = (machine.state.redraw || machine.draws input) := by
  rcases machine.step_screen_cases input with ⟨hdraws, hredraw⟩ | ⟨hdraws, hredraw, -⟩
  · rw [hredraw, hdraws, Bool.or_true]
  · rw [hredraw, hdraws, Bool.or_false]

/-- Only a step that draws or clears changes the screen. -/
theorem screen_step {machine : Machine} {input : Input} (hdraws : machine.draws input = false) :
    (machine.step input).2.state.screen = machine.state.screen := by
  rcases machine.step_screen_cases input with ⟨hdrawing, -⟩ | ⟨-, -, hscreen⟩
  · rw [hdraws] at hdrawing
    cases hdrawing
  · exact hscreen

/-- A halted machine draws nothing. -/
theorem draws_of_halted {machine : Machine} {fault : Fault} (h : machine.halted = some fault)
    (input : Input) : machine.draws input = false := by
  unfold draws executed? status
  rw [h]
  rfl

/-- A step that draws does not halt the machine. -/
theorem halted_step_of_draws {machine : Machine} {input : Input}
    (hdraws : machine.draws input = true) : (machine.step input).2.halted = none := by
  have htransition := machine.transition input
  unfold draws at hdraws
  generalize machine.executed? input = executed, machine.step input = result
    at htransition hdraws ⊢
  cases htransition with
  | executed hrun hwait hfetch hleads => exact hrun
  | _ => cases hdraws

end Machine

/-! ## What the mark changes -/

namespace State

/-- The state with its screen not marked as due. -/
def unmarked (state : State) : State :=
  { state with redraw := false }

/-- Two results that are the same but for the mark. -/
abbrev Alike (left right : Except Fault State) : Prop :=
  left.map unmarked = right.map unmarked

/-- An instruction does the same to a state and to the state without the mark. -/
theorem execute_unmarked (state : State) (input : Input) (instruction : Instruction) :
    Alike (instruction.execute state.unmarked input) (instruction.execute state input) := by
  have hstack : state.unmarked.stack = state.stack := rfl
  have hmemory : state.unmarked.memory = state.memory := rfl
  have hv : state.unmarked.v = state.v := rfl
  have hi : state.unmarked.i = state.i := rfl
  have hpc : state.unmarked.pc = state.pc := rfl
  cases instruction with
  | ret =>
    simp only [Instruction.execute, hstack]
    cases state.stack.pop? with
    | none => rfl
    | some popped => rfl
  | call target =>
    simp only [Instruction.execute, hstack, hpc]
    cases state.stack.push state.pc with
    | error _ => rfl
    | ok stack => rfl
  | skip condition =>
    have hholds : condition.holds state.unmarked input.keyboard =
        condition.holds state input.keyboard := by
      cases condition <;> rfl
    simp only [Instruction.execute, hholds]
    cases condition.holds state input.keyboard with
    | false => rfl
    | true => rfl
  | combine operation x y =>
    simp only [Instruction.execute, State.combine, hv]
    cases operation.flag? (state.v.get x) (state.v.get y) with
    | none => rfl
    | some flag => rfl
  | draw x y n =>
    simp only [Instruction.execute, hmemory, hi]
    cases state.memory.read state.i n.val with
    | error _ => rfl
    | ok sprite => rfl
  | storeDecimal x | save x =>
    simp only [Instruction.execute, State.storeBytes, hmemory, hi, hv]
    cases state.memory.write state.i _ with
    | error _ => rfl
    | ok memory => rfl
  | restore x =>
    simp only [Instruction.execute, hmemory, hi]
    cases state.memory.read state.i (x.val + 1) with
    | error _ => rfl
    | ok data => rfl
  | _ => rfl

/-- The next instruction does the same to a state and to the state without the mark. -/
theorem executeNext_unmarked (state : State) (input : Input) :
    Alike (state.unmarked.executeNext input) (state.executeNext input) := by
  have hfetch : state.unmarked.memory.word state.unmarked.pc = state.memory.word state.pc := rfl
  unfold executeNext
  rw [hfetch]
  cases state.memory.word state.pc with
  | error _ => rfl
  | ok word => exact execute_unmarked { state with pc := state.pc + 2 } input _

/-- The next instruction fails on a state exactly when it does on the state without the mark. -/
theorem executeNext_unmarked_eq_error_iff {state : State} {input : Input} {fault : Fault} :
    state.unmarked.executeNext input = .error fault ↔ state.executeNext input = .error fault := by
  rw [← map_eq_error_iff (f := unmarked), executeNext_unmarked, map_eq_error_iff]

/-- When the next instruction succeeds on a state, it does on the state without the mark. -/
theorem exists_executeNext_unmarked {state after : State} {input : Input}
    (h : state.executeNext input = .ok after) :
    ∃ other, state.unmarked.executeNext input = .ok other ∧ other.unmarked = after.unmarked := by
  have halike := state.executeNext_unmarked input
  rw [h] at halike
  exact map_eq_ok_iff.mp halike

end State

namespace Machine

/-- The machine with its screen not marked as due. -/
def unmarked (machine : Machine) : Machine :=
  { machine with state := machine.state.unmarked }

/-- Taking a frame wipes the mark off and changes nothing else. -/
theorem takeFrame_snd_eq_unmarked (machine : Machine) :
    machine.takeFrame.2 = machine.unmarked :=
  machine.takeFrame_snd

/-- A frame is taken exactly if the screen is due. -/
theorem takeFrame_fst (machine : Machine) :
    machine.takeFrame.1 = if machine.state.redraw then some machine.state.screen else none := by
  unfold takeFrame
  cases machine.state.redraw with
  | false => rfl
  | true => rfl

/-- A step of the machine without the mark has the same result, and leads to the same machine but
for the mark. -/
theorem step_unmarked (machine : Machine) (input : Input) :
    (machine.unmarked.step input).1 = (machine.step input).1 ∧
      (machine.unmarked.step input).2.unmarked = (machine.step input).2.unmarked := by
  have hhalted : machine.unmarked.halted = machine.halted := rfl
  have hawaiting : machine.unmarked.state.awaiting = machine.state.awaiting := rfl
  rcases hrun : machine.halted with _ | fault
  · rw [hrun] at hhalted
    rcases hwait : machine.state.awaiting with _ | x
    · rw [hwait] at hawaiting
      rcases hnext : machine.state.executeNext input with fault | after
      · have hunmarked := State.executeNext_unmarked_eq_error_iff.mpr hnext
        rw [step_of_error hrun hwait hnext, step_of_error hhalted hawaiting hunmarked]
        exact ⟨rfl, rfl⟩
      · obtain ⟨other, hunmarked, hsame⟩ := State.exists_executeNext_unmarked hnext
        rw [step_of_ok hrun hwait hnext, step_of_ok hhalted hawaiting hunmarked]
        have htick := congrArg State.tick hsame
        exact ⟨rfl, congrArg (fun state : State => { machine with state }) htick⟩
    · rw [hwait] at hawaiting
      rw [step_of_awaiting hrun hwait, step_of_awaiting hhalted hawaiting]
      have hpoll : (machine.state.unmarked.poll x input.keyboard).unmarked =
          (machine.state.poll x input.keyboard).unmarked := by
        unfold State.poll
        cases input.keyboard.pressedKey with
        | none => rfl
        | some key => rfl
      exact ⟨rfl, congrArg (fun state : State => { machine with state }) hpoll⟩
  · rw [hrun] at hhalted
    rw [step_of_halted hrun, step_of_halted hhalted]
    exact ⟨rfl, rfl⟩

/-- The machine without the mark draws in the same steps. -/
theorem draws_unmarked (machine : Machine) (input : Input) :
    machine.unmarked.draws input = machine.draws input := by
  have hstatus : machine.unmarked.status = machine.status := rfl
  have hfetch : machine.unmarked.state.memory.word machine.unmarked.state.pc =
      machine.state.memory.word machine.state.pc := rfl
  have hstate : machine.unmarked.state = machine.state.unmarked := rfl
  unfold draws executed?
  rw [hstatus, hfetch, hstate]
  cases machine.status with
  | awaitingKey x => rfl
  | halted fault => rfl
  | running =>
    cases machine.state.memory.word machine.state.pc with
    | error _ => rfl
    | ok word =>
      rcases hnext : machine.state.executeNext input with fault | after
      · rw [State.executeNext_unmarked_eq_error_iff.mpr hnext]
      · obtain ⟨other, hunmarked, -⟩ := State.exists_executeNext_unmarked hnext
        rw [hunmarked]
        rfl

/-- From a machine without the mark, a step leads to where it leads from the machine with it, marked
exactly if the step draws. -/
theorem step_unmarked_snd (machine : Machine) (input : Input) :
    (machine.unmarked.step input).2 =
      { (machine.step input).2 with
        state := { (machine.step input).2.state with redraw := machine.draws input } } := by
  have hsame := (machine.step_unmarked input).2
  have hredraw : (machine.unmarked.step input).2.state.redraw = machine.draws input := by
    rw [redraw_step, draws_unmarked]
    exact Bool.false_or _
  rw [← hredraw]
  exact congrArg (fun other : Machine => { other with
    state := { other.state with redraw := (machine.unmarked.step input).2.state.redraw } }) hsame

end Machine

end Chip8
