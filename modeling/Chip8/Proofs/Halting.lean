import Chip8.Proofs.Faults
import Chip8.Proofs.Redraw

/-!
# What follows a fault

* `Reachable.at_fault`: a reachable machine that is halted awaits no key, and its next instruction
  commits the fault that halted it.
* `steps_of_halted`: a halted machine answers every step alike.
* `run_of_halted`, `pictures_of_halted`: a halted machine loses the mark that its screen is due, and
  nothing else, and it hands over at most one picture.
* `halting_is_final_and_faithful`: so every step after a failed one fails alike, nothing is changed
  any more, and the fault is the one that the instruction at the program counter commits.
-/

namespace Chip8

/-- No instruction is at fault for the size of an image. -/
theorem State.Faults.ne_outOfSpace {state : State} {fault : Fault} (hfaults : state.Faults fault)
    (size max : Nat) : fault ≠ .outOfSpace size max := by
  rintro rfl
  cases hfaults

namespace Machine

/-! ## The cause of a halt -/

/-- Whether a machine, if it is halted, stands on the instruction that halted it and awaits no
key. -/
def AtFault (machine : Machine) : Prop :=
  ∀ fault, machine.halted = some fault →
    machine.state.awaiting = none ∧ ∀ input, machine.state.executeNext input = .error fault

/-- A step that halts the machine leaves it on the instruction at fault; other steps do not halt
it. -/
theorem AtFault.step {machine : Machine} (hfault : machine.AtFault) (input : Input) :
    (machine.step input).2.AtFault := by
  have htransition := machine.transition input
  generalize machine.executed? input = executed, machine.step input = result at htransition ⊢
  cases htransition with
  | halted hhalted => exact hfault
  | polled hrun hwait =>
    intro fault hhalted
    exact absurd (hrun.symm.trans hhalted) nofun
  | executed hrun hwait hfetch hleads =>
    intro fault hhalted
    exact absurd (hrun.symm.trans hhalted) nofun
  | failed hrun hwait hfails =>
    intro fault hhalted
    cases hhalted
    refine ⟨hwait, ?_⟩
    intro other
    -- The cases of `Faults` mention neither the keys nor the chance.
    rw [State.executeNext_eq_error_iff_faults] at hfails ⊢
    exact hfails

/-- Wiping the mark off leaves a halted machine on the instruction at fault. -/
theorem AtFault.unmarked {machine : Machine} (hfault : machine.AtFault) :
    machine.unmarked.AtFault := by
  intro fault hhalted
  obtain ⟨hwait, hfails⟩ := hfault fault hhalted
  exact ⟨hwait, fun input => State.executeNext_unmarked_eq_error_iff.mpr (hfails input)⟩

/-- **A reachable machine that is halted stands on the instruction that halted it.** -/
theorem Reachable.at_fault {machine : Machine} (hreach : machine.Reachable) :
    machine.AtFault := by
  induction hreach with
  | load hload =>
    obtain ⟨-, -, rfl⟩ := load_eq_ok_iff.mp hload
    intro fault hhalted
    cases hhalted
  | @act machine _ action ih =>
    cases action with
    | step input => exact ih.step input
    | takeFrame =>
      change machine.takeFrame.2.AtFault
      rw [takeFrame_snd_eq_unmarked]
      exact ih.unmarked

/-! ## Runs of a halted machine -/

/-- A step that fails leaves the machine halted with the fault, and its state as it was. -/
theorem halted_of_step_eq_error {machine : Machine} {input : Input} {fault : Fault}
    (hfails : (machine.step input).1 = .error fault) :
    (machine.step input).2.halted = some fault ∧
      (machine.step input).2.state = machine.state := by
  have htransition := machine.transition input
  generalize machine.executed? input = executed, machine.step input = result
    at htransition hfails ⊢
  cases htransition with
  | halted hhalted =>
    cases hfails
    exact ⟨hhalted, rfl⟩
  | polled hrun hwait => cases hfails
  | executed hrun hwait hfetch hleads => cases hfails
  | failed hrun hwait hnext =>
    cases hfails
    exact ⟨rfl, rfl⟩

/-- A halted machine answers every step alike, and stays as it is. -/
theorem steps_of_halted {machine : Machine} {fault : Fault} (h : machine.halted = some fault)
    (inputs : List Input) :
    machine.answers (inputs.map .step) = List.replicate inputs.length (.stepped (.error fault)) ∧
      machine.run (inputs.map .step) = machine := by
  induction inputs with
  | nil => exact ⟨rfl, rfl⟩
  | cons input rest ih =>
    have hact : machine.act (.step input) = (.stepped (.error fault), machine) := by
      rw [act, step_of_halted h]
    obtain ⟨hanswers, hrun⟩ := ih
    rw [List.map_cons, answers, run, hact, hanswers, hrun]
    exact ⟨rfl, rfl⟩

/-- **A halted machine keeps everything but the mark**, which the first frame taken wipes off. -/
theorem run_of_halted {machine : Machine} {fault : Fault} (h : machine.halted = some fault)
    (actions : List Action) :
    machine.run actions =
      if actions.any Action.takesFrame then machine.unmarked else machine := by
  induction actions generalizing machine with
  | nil => rfl
  | cons action rest ih =>
    cases action with
    | step input =>
      have hstep : (machine.act (.step input)).2 = machine := by
        rw [act, step_of_halted h]
      rw [run, hstep, ih h]
      rfl
    | takeFrame =>
      have htaken : (machine.act .takeFrame).2 = machine.unmarked :=
        machine.takeFrame_snd_eq_unmarked
      have hunmarked : machine.unmarked.halted = some fault := h
      rw [run, htaken, ih hunmarked]
      exact ite_self _

/-- **A halted machine hands over one picture at most**, the one that is due when it halts. -/
theorem pictures_of_halted {machine : Machine} {fault : Fault} (h : machine.halted = some fault)
    (actions : List Action) :
    (machine.answers actions).filterMap Answer.picture? =
      if machine.state.redraw && actions.any Action.takesFrame then [machine.state.screen]
      else [] := by
  induction actions generalizing machine with
  | nil =>
    rw [List.any_nil, Bool.and_false]
    rfl
  | cons action rest ih =>
    cases action with
    | step input =>
      have hact : machine.act (.step input) = (.stepped (.error fault), machine) := by
        rw [act, step_of_halted h]
      rw [answers, hact]
      exact ih h
    | takeFrame =>
      have hact : machine.act .takeFrame =
          (.frame (if machine.state.redraw then some machine.state.screen else none),
            machine.unmarked) := by
        rw [act, takeFrame_fst, takeFrame_snd_eq_unmarked]
      have hunmarked : machine.unmarked.halted = some fault := h
      have hrest : (machine.unmarked.answers rest).filterMap Answer.picture? = [] :=
        ih hunmarked
      rw [answers, hact, List.filterMap_cons, hrest]
      cases machine.state.redraw with
      | false => rfl
      | true => rfl

/-- **Halting is final, and the fault is the true cause.** When a step fails at some time in the
life of a loaded program, it leaves the state as it was; and whatever is done afterwards, every
step fails with the same fault, the machine stays halted with it and awaits no key, nothing in the
state changes but that the first frame taken wipes the mark off, and no picture is handed over but
the one that was due. The fault is never that of an image, and executing the instruction at
the program counter commits it, whatever the keys and the chance. -/
theorem halting_is_final_and_faithful {image : List UInt8} {start : Machine}
    (hload : load image = .ok start) {actions : List Action} {input : Input} {fault : Fault}
    (hfails : ((start.run actions).step input).1 = .error fault) :
    let machine := start.run actions
    let halted := (machine.step input).2
    halted.state = machine.state ∧
      (∀ size max, fault ≠ .outOfSpace size max) ∧
      ∀ later : List Action,
        let after := halted.run later
        (∀ next, (after.step next).1 = .error fault) ∧
          after.status = .halted fault ∧
          after.isAwaitingKey = false ∧
          after.state = { machine.state with
            redraw := machine.state.redraw && !later.any Action.takesFrame } ∧
          (halted.answers later).filterMap Answer.picture? =
            (if machine.state.redraw && later.any Action.takesFrame then [machine.state.screen]
              else []) ∧
          ∀ next, after.state.executeNext next = .error fault := by
  intro machine halted
  obtain ⟨hhalted, hstate⟩ := halted_of_step_eq_error hfails
  have hreach : halted.Reachable := ((Reachable.load hload).run actions).act (.step input)
  obtain ⟨-, hcause⟩ := hreach.at_fault fault hhalted
  refine ⟨hstate, ?_, ?_⟩
  · exact (State.executeNext_eq_error_iff_faults input |>.mp (hcause input)).ne_outOfSpace
  · intro later after
    have hafter : after.halted = some fault := by
      change (halted.run later).halted = some fault
      rw [run_of_halted hhalted]
      split
      · exact hhalted
      · exact hhalted
    obtain ⟨hwait, hfaithful⟩ := (hreach.run later).at_fault fault hafter
    refine ⟨?_, ?_, ?_, ?_, ?_, hfaithful⟩
    · intro next
      rw [step_of_halted hafter]
    · rw [status, hafter]
    · rw [isAwaitingKey, hwait]
      rfl
    · change (halted.run later).state = _
      rw [run_of_halted hhalted, ← hstate]
      cases later.any Action.takesFrame with
      | false => rw [if_neg Bool.false_ne_true, Bool.not_false, Bool.and_true]
      | true => rw [if_pos rfl, Bool.not_true, Bool.and_false]; rfl
    · rw [pictures_of_halted hhalted, hstate]

/-- A program that clears the screen and then returns without a call: its second step fails, the
blank screen that was due is handed over once, and every key and chance meets the same fault. -/
theorem halting_is_final_and_faithful_return :
    let image : List UInt8 := [0x00, 0xE0, 0x00, 0xEE]
    let idle : Input := { keyboard := Keypad.empty.keyboard }
    let halted := ((ofImage image).run [.step idle, .step idle])
    let later : List Action := [.takeFrame, .step idle, .takeFrame]
    load image = .ok (ofImage image) ∧
      (((ofImage image).run [.step idle]).step idle).1 = .error (.stackUnderflow 0x202) ∧
      (halted.run later).status = .halted (.stackUnderflow 0x202) ∧
      (halted.answers later).filterMap Answer.picture? = [.blank] ∧
      ∀ input, (halted.run later).state.executeNext input = .error (.stackUnderflow 0x202) := by
  intro image idle halted later
  have hload : load image = .ok (ofImage image) :=
    load_eq_ok_iff.mpr ⟨by decide, by decide, rfl⟩
  have hevaluated :
      (((ofImage image).run [.step idle]).step idle).1 = .error (.stackUnderflow 0x202) ∧
        ((ofImage image).run [.step idle]).state.redraw = true ∧
        ((ofImage image).run [.step idle]).state.screen = .blank := by
    decide +kernel
  obtain ⟨hfails, hdue, hblank⟩ := hevaluated
  obtain ⟨-, -, hfinal⟩ := halting_is_final_and_faithful hload hfails
  obtain ⟨-, hstatus, -, -, hpictures, hcause⟩ := hfinal later
  rw [hdue, hblank] at hpictures
  exact ⟨hload, hfails, hstatus, hpictures, hcause⟩

end Machine

end Chip8
