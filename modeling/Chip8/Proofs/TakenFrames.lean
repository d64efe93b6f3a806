import Chip8.Proofs.Redraw
import Mathlib.Data.List.DropRight

/-!
# The frames that a host takes

A host may take a frame at any time, and gets one exactly if there is news.

* `Action.untilTaken`, `Action.sinceTaken`: the actions up to the last frame taken, and those after
  it.
* `redraw_run`, `screen_run`: what a list of steps does to the mark and to the screen, said on the
  instructions that it executes.
* `redraw_run_untilTaken`: no mark is left where the steps since the last frame begin.
* `run_forget_frames`: a run leads to the same machine, but for the mark, when the frames taken in
  it are left out.
* `frames_are_taken_when_due`: a frame is handed over exactly if something was drawn since the last
  one, and no frame taken has a part in what the program does.
-/

namespace Chip8

/-- The input of a step. -/
def Action.input? : Action → Option Input
  | .step input => some input
  | .takeFrame => none

/-- The result of a step. -/
def Answer.result? {picture : Type} : Answer picture → Option (Except Fault Unit)
  | .stepped result => some result
  | .frame _ => none

/-- The actions up to the last time that a frame was taken. -/
def Action.untilTaken (actions : List Action) : List Action :=
  actions.rdropWhile fun action => !action.takesFrame

/-- The actions after the last time that a frame was taken. -/
def Action.sinceTaken (actions : List Action) : List Action :=
  actions.rtakeWhile fun action => !action.takesFrame

/-- The last frame taken parts the actions in two. -/
theorem Action.untilTaken_append_sinceTaken (actions : List Action) :
    untilTaken actions ++ sinceTaken actions = actions :=
  List.rdropWhile_append_rtakeWhile

/-- After the last frame there are only steps. -/
theorem Action.takesFrame_of_mem_sinceTaken {actions : List Action} {action : Action}
    (hmem : action ∈ sinceTaken actions) : action.takesFrame = false := by
  simpa using List.mem_rtakeWhile_imp hmem

/-- The actions up to the last frame end with that frame, if there are any. -/
theorem Action.untilTaken_eq_concat {actions : List Action} (hne : untilTaken actions ≠ []) :
    ∃ before, untilTaken actions = before ++ [.takeFrame] := by
  have hlast : ¬(!((untilTaken actions).getLast hne).takesFrame) = true :=
    List.rdropWhile_last_not _ actions hne
  refine ⟨(untilTaken actions).dropLast, ?_⟩
  cases hframe : (untilTaken actions).getLast hne with
  | step input =>
    rw [hframe] at hlast
    exact absurd rfl hlast
  | takeFrame => rw [← hframe, List.dropLast_append_getLast]

namespace Machine

/-! ## The mark and the screen over a run -/

/-- Whether a step draws, said on what it adds to the history. -/
theorem any_draws_executed? (machine : Machine) (input : Input) :
    (machine.executed? input).toList.any Executed.draws = machine.draws input := by
  unfold draws
  cases machine.executed? input with
  | none => rfl
  | some executed => simp

/-- Steps leave the mark if it was there or one of their instructions drew or cleared. -/
theorem redraw_run {machine : Machine} {actions : List Action}
    (hsteps : ∀ action ∈ actions, action.takesFrame = false) :
    (machine.run actions).state.redraw =
      (machine.state.redraw || (machine.history actions).any Executed.draws) := by
  induction actions generalizing machine with
  | nil => simp [run, history]
  | cons action rest ih =>
    cases action with
    | takeFrame =>
      have := hsteps .takeFrame List.mem_cons_self
      cases this
    | step input =>
      have hrest : ∀ action ∈ rest, action.takesFrame = false := by
        intro action hmem
        exact hsteps action (List.mem_cons_of_mem _ hmem)
      rw [history, List.any_append, any_draws_executed?, ← Bool.or_assoc, ← redraw_step]
      exact ih hrest

/-- Only instructions that draw or clear change the screen over a run. -/
theorem screen_run {machine : Machine} {actions : List Action}
    (hdraws : (machine.history actions).any Executed.draws = false) :
    (machine.run actions).state.screen = machine.state.screen := by
  induction actions generalizing machine with
  | nil => rfl
  | cons action rest ih =>
    cases action with
    | takeFrame =>
      have hscreen : machine.takeFrame.2.state.screen = machine.state.screen := by
        rw [takeFrame_snd]
      rw [← hscreen]
      exact ih hdraws
    | step input =>
      rw [history, List.any_append, any_draws_executed?, Bool.or_eq_false_iff] at hdraws
      obtain ⟨hstep, hrest⟩ := hdraws
      rw [← screen_step hstep]
      exact ih hrest

/-- **No mark is left** where the steps since the last frame begin, which is after that frame or at
the start. -/
theorem redraw_run_untilTaken {start : Machine} (hstart : start.state.redraw = false)
    (actions : List Action) : (start.run (Action.untilTaken actions)).state.redraw = false := by
  by_cases hempty : Action.untilTaken actions = []
  · rw [hempty]
    exact hstart
  · obtain ⟨before, hlast⟩ := Action.untilTaken_eq_concat hempty
    rw [hlast, run_append]
    show (start.run before).takeFrame.2.state.redraw = false
    rw [takeFrame_snd]

/-! ## Runs with the frames left out -/

/-- Machines that differ in the mark only go on alike. -/
theorem step_of_unmarked_eq {left right : Machine} (hsame : left.unmarked = right.unmarked)
    (input : Input) :
    (left.step input).1 = (right.step input).1 ∧
      (left.step input).2.unmarked = (right.step input).2.unmarked := by
  obtain ⟨hleft, hleft'⟩ := left.step_unmarked input
  obtain ⟨hright, hright'⟩ := right.step_unmarked input
  rw [hsame] at hleft hleft'
  exact ⟨hleft.symm.trans hright, hleft'.symm.trans hright'⟩

/-- **Leaving the frames out of a run** changes neither the results of its steps nor, but for the
mark, the machine that it leads to. -/
theorem run_forget_frames {left right : Machine} (hsame : left.unmarked = right.unmarked)
    (actions : List Action) :
    let steps := (actions.filterMap Action.input?).map Action.step
    (left.answers actions).filterMap Answer.result? =
        (right.answers steps).filterMap Answer.result? ∧
      (left.run actions).unmarked = (right.run steps).unmarked := by
  induction actions generalizing left right with
  | nil => exact ⟨rfl, hsame⟩
  | cons action rest ih =>
    cases action with
    | takeFrame =>
      apply ih
      show left.takeFrame.2.unmarked = right.unmarked
      rw [takeFrame_snd_eq_unmarked]
      exact hsame
    | step input =>
      obtain ⟨hresult, hnext⟩ := step_of_unmarked_eq hsame input
      obtain ⟨hresults, hlast⟩ := ih hnext
      refine ⟨?_, hlast⟩
      show (left.step input).1 :: _ = (right.step input).1 :: _
      rw [hresult]
      exact congrArg (_ :: ·) hresults

/-- Runs with the same steps differ in the frames they hand over, and else in the mark only. -/
theorem run_of_same_steps (start : Machine) {first second : List Action}
    (hsteps : first.filterMap Action.input? = second.filterMap Action.input?) :
    (start.answers first).filterMap Answer.result? =
        (start.answers second).filterMap Answer.result? ∧
      (start.run first).unmarked = (start.run second).unmarked := by
  obtain ⟨hfirst, hfirst'⟩ := run_forget_frames (rfl : start.unmarked = _) first
  obtain ⟨hsecond, hsecond'⟩ := run_forget_frames (rfl : start.unmarked = _) second
  rw [hsteps] at hfirst hfirst'
  exact ⟨hfirst.trans hsecond.symm, hfirst'.trans hsecond'.symm⟩

/-! ## Frames over a run -/

/-- **Frames are taken when they are due.** After any run of a loaded program, a frame is handed
over exactly if an instruction since the last frame was taken, or since the start, drew on the
screen or cleared it, and then it is the present screen; if none is handed over, the screen is what
it was then, and at the start it is blank. And a run of the same steps, with frames taken at any
other times, has the same results and leads to a machine of the same status that differs in the mark
only. -/
theorem frames_are_taken_when_due {image : List UInt8} {start : Machine}
    (hload : load image = .ok start) (actions : List Action) :
    let machine := start.run actions
    let earlier := start.run (Action.untilTaken actions)
    (machine.takeFrame.1.isSome ↔
        ∃ executed ∈ earlier.history (Action.sinceTaken actions),
          executed.op.word = 0x00E0 ∨ executed.op.family = 0xD) ∧
      (∀ screen, machine.takeFrame.1 = some screen → screen = machine.state.screen) ∧
      (machine.takeFrame.1 = none → machine.state.screen = earlier.state.screen) ∧
      start.state.screen = .blank ∧
      ∀ other : List Action, other.filterMap Action.input? = actions.filterMap Action.input? →
        (start.answers other).filterMap Answer.result? =
            (start.answers actions).filterMap Answer.result? ∧
          (start.run other).status = machine.status ∧
          start.run other = { machine with
            state := { machine.state with redraw := (start.run other).state.redraw } } := by
  intro machine earlier
  obtain ⟨-, -, rfl⟩ := load_eq_ok_iff.mp hload
  have hmachine : machine = earlier.run (Action.sinceTaken actions) := by
    rw [← run_append, Action.untilTaken_append_sinceTaken]
  have hfresh : earlier.state.redraw = false := redraw_run_untilTaken rfl actions
  have hredraw : machine.state.redraw =
      (earlier.history (Action.sinceTaken actions)).any Executed.draws := by
    rw [hmachine, redraw_run fun _ => Action.takesFrame_of_mem_sinceTaken, hfresh, Bool.false_or]
  have htaken := machine.takeFrame_fst
  refine ⟨?_, ?_, ?_, rfl, ?_⟩
  · rw [htaken, Option.isSome_ite, hredraw, List.any_eq_true]
    simp [Executed.draws]
  · intro screen hscreen
    rw [htaken, Option.ite_none_right_eq_some, Option.some.injEq] at hscreen
    exact hscreen.2.symm
  · intro hnone
    rw [htaken, ite_eq_right_iff] at hnone
    rw [hmachine]
    apply screen_run
    rw [← hredraw, Bool.eq_false_iff]
    intro hdue
    cases hnone hdue
  · intro other hsteps
    obtain ⟨hresults, hsame⟩ := (ofImage image).run_of_same_steps hsteps
    have hstatus := congrArg status hsame
    refine ⟨hresults, hstatus, ?_⟩
    exact congrArg (fun unmarked : Machine => { unmarked with state := { unmarked.state with
        redraw := ((ofImage image).run other).state.redraw } }) hsame

/-- A program that clears the screen and then loads a register: a frame is handed over after its
first step; after its second there is none if that frame was taken, and one if it was not. -/
theorem frames_are_taken_when_due_clear :
    let image : List UInt8 := [0x00, 0xE0, 0x60, 0x01]
    let start := ofImage image
    let idle : Input := { keyboard := Keypad.empty.keyboard }
    let taking : List Action := [.step idle, .takeFrame, .step idle]
    let plain : List Action := [.step idle, .step idle]
    load image = .ok start ∧
      (start.run [.step idle]).takeFrame.1.isSome ∧
      ¬(start.run taking).takeFrame.1.isSome ∧
      (start.run plain).takeFrame.1.isSome ∧
      (start.run taking).status = (start.run plain).status := by
  intro image start idle taking plain
  have hload : load image = .ok start := load_eq_ok_iff.mpr ⟨by decide, by decide, rfl⟩
  have hevaluated : (start.history [.step idle]).any Executed.draws = true ∧
      ((start.run [.step idle, .takeFrame]).history [.step idle]).any Executed.draws = false ∧
      (start.history plain).any Executed.draws = true := by
    decide +kernel
  simp only [List.any_eq_true, List.any_eq_false, Executed.draws, Bool.or_eq_true, beq_iff_eq]
    at hevaluated
  obtain ⟨hone, hnone, htwo⟩ := hevaluated
  obtain ⟨hfirst, -⟩ := frames_are_taken_when_due hload [.step idle]
  obtain ⟨htaken, -, -, -, hsame⟩ := frames_are_taken_when_due hload taking
  obtain ⟨hplain, -⟩ := frames_are_taken_when_due hload plain
  obtain ⟨-, hstatus, -⟩ := hsame plain rfl
  refine ⟨hload, hfirst.mpr hone, ?_, hplain.mpr htwo, hstatus.symm⟩
  intro hsome
  obtain ⟨executed, hmem, hdraws⟩ := htaken.mp hsome
  exact hnone executed hmem hdraws

end Machine

end Chip8
