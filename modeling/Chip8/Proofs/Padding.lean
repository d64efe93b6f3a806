import Chip8.Proofs.Transfers
import Chip8.Proofs.Truncation

/-!
# Programs followed by zeros

The rest of memory behind a program is zero anyway. So zeros at the end of an image change nothing
but the size of the program, on which only the test for the end of the program depends.

* `Machine.padded`, `Session.padded`: a machine and a session whose program is that much longer.
* `ofImage_append_zeros`: zeros at the end of an image give the same machine with a longer program.
* `Machine.act_padded`, `Machine.run_padded`: a longer program makes no difference to an action, and
  none to a run.
* `Session.pass_padded_cases`, `Session.play_padded_cases`: it makes no difference to a pass, unless
  the shorter program ends with it; so either it makes none to a session, or the session ends with
  the program and its frames are the first of those that the longer program shows.
* `zeros_behind_a_program_do_not_show`: the two results for machines and for whole runs.
-/

namespace Chip8

namespace Machine

/-- The machine whose program has `count` further bytes. -/
def padded (machine : Machine) (count : Nat) : Machine :=
  { machine with programSize := machine.programSize + count }

/-! ## Loading -/

/-- Zeros at the end of an image are no different from the rest of memory behind it. -/
theorem loadedByte_append_zeros (image : List UInt8) (count address : Nat) :
    loadedByte (image ++ List.replicate count 0) address = loadedByte image address := by
  unfold loadedByte
  rw [List.length_append, List.length_replicate]
  by_cases hprogram : 0x200 ≤ address ∧ address < 0x200 + image.length
  · rw [if_pos hprogram, if_pos (by omega), List.getD_append _ _ _ _ (by omega)]
  · rw [if_neg hprogram]
    by_cases hzeros : 0x200 ≤ address ∧ address < 0x200 + (image.length + count)
    · rw [if_pos hzeros, if_neg (by omega), List.getD_append_right _ _ _ _ (by omega),
        List.getD_replicate 0 (by omega)]
    · rw [if_neg hzeros]

/-- **Zeros at the end of an image make its program longer, and nothing else.** -/
theorem ofImage_append_zeros (image : List UInt8) (count : Nat) :
    ofImage (image ++ List.replicate count 0) = (ofImage image).padded count := by
  have hmemory : (ofImage (image ++ List.replicate count 0)).state.memory =
      (ofImage image).state.memory := by
    apply Memory.ext_get
    intro address
    rw [memory_ofImage, memory_ofImage, loadedByte_append_zeros]
  have hsize : (image ++ List.replicate count 0).length = image.length + count := by
    rw [List.length_append, List.length_replicate]
  exact congrArg₂ (fun memory size => Machine.mk { memory } size none) hmemory hsize

/-! ## Actions -/

/-- A longer program makes no difference to a step. -/
theorem step_padded (machine : Machine) (count : Nat) (input : Input) :
    (machine.padded count).step input =
      ((machine.step input).1, (machine.step input).2.padded count) := by
  obtain ⟨state, size, halted⟩ := machine
  unfold padded step
  dsimp only
  cases halted with
  | some fault => rfl
  | none =>
    cases state.awaiting with
    | some x => rfl
    | none =>
      cases state.executeNext input with
      | ok after => rfl
      | error fault => rfl

/-- Nor does it to taking a frame. -/
theorem takeFrame_padded (machine : Machine) (count : Nat) :
    (machine.padded count).takeFrame =
      (machine.takeFrame.1, machine.takeFrame.2.padded count) := by
  unfold padded takeFrame
  dsimp only
  split_ifs
  · rfl
  · rfl

/-- **A longer program makes no difference to an action.** -/
theorem act_padded (machine : Machine) (count : Nat) (action : Action) :
    (machine.padded count).act action =
      ((machine.act action).1, (machine.act action).2.padded count) := by
  cases action with
  | step input => rw [act, step_padded, act]
  | takeFrame => rw [act, takeFrame_padded, act]

/-- **A longer program makes no difference to a run.** -/
theorem run_padded (machine : Machine) (count : Nat) (actions : List Action) :
    (machine.padded count).answers actions = machine.answers actions ∧
      (machine.padded count).run actions = (machine.run actions).padded count := by
  induction actions generalizing machine with
  | nil => exact ⟨rfl, rfl⟩
  | cons action rest ih =>
    obtain ⟨hanswers, hrun⟩ := ih (machine.act action).2
    rw [answers, run, act_padded, hanswers, hrun]
    exact ⟨rfl, rfl⟩

/-- A program counter in a program is in every longer one. -/
theorem pcInProgram_padded {machine : Machine} (h : machine.pcInProgram = true) (count : Nat) :
    (machine.padded count).pcInProgram = true := by
  unfold pcInProgram padded at *
  simp only [decide_eq_true_eq] at *
  omega

end Machine

namespace Session

/-- The session whose machine runs a program with `count` further bytes. -/
def padded (session : Session) (count : Nat) : Session :=
  { session with machine := session.machine.padded count }

/-! ## Parts of a pass -/

/-- A longer program makes no difference to showing a screen. -/
theorem present_padded (session : Session) (count : Nat) (device : Device) (screen : Screen) :
    (session.padded count).present device screen =
      (session.present device screen).map (·.padded count) := by
  have hframes : (session.padded count).frames = session.frames := rfl
  rw [present_eq, present_eq, hframes]
  cases device.requestFrame (session.frames.size + 1) with
  | error error => rfl
  | ok _ => rfl

/-- Nor does it to showing the screen if it is due. -/
theorem refresh_padded (session : Session) (count : Nat) (device : Device) :
    (session.padded count).refresh device =
      ((session.refresh device).1.padded count, (session.refresh device).2) := by
  have htaken : (session.padded count).machine.takeFrame =
      (session.machine.takeFrame.1, session.machine.takeFrame.2.padded count) :=
    session.machine.takeFrame_padded count
  unfold refresh
  rw [htaken]
  rcases session.machine.takeFrame with ⟨_ | screen, machine⟩
  · rfl
  · have hpresent : Session.present { session.padded count with machine := machine.padded count }
        device screen = (Session.present { session with machine } device screen).map
          (·.padded count) := present_padded { session with machine } count device screen
    dsimp only
    rw [hpresent]
    cases Session.present { session with machine } device screen with
    | ok after => rfl
    | error error => rfl

/-- Nor does it to a step of the machine. -/
theorem step_padded (session : Session) (count : Nat) (chance : UInt8) :
    (session.padded count).step chance = (session.step chance).padded count := by
  have hstep (input : Input) : (session.padded count).machine.step input =
      ((session.machine.step input).1, (session.machine.step input).2.padded count) :=
    session.machine.step_padded count input
  have hkeypad : (session.padded count).keypad = session.keypad := rfl
  unfold step
  rw [hstep, hkeypad]
  rcases session.machine.step { keyboard := session.keypad.keyboard, chance } with
    ⟨fault | _, machine⟩
  · rfl
  · rfl

/-- The longer program has not run past its end as long as the shorter one has not. -/
theorem atEnd_padded {session : Session} (h : session.atEnd = false) (count : Nat) :
    (session.padded count).atEnd = false := by
  unfold atEnd at *
  rw [Bool.and_eq_false_iff, Bool.not_eq_false', Bool.not_eq_false'] at *
  rcases h with hwait | hin
  · exact .inl hwait
  · exact .inr (Machine.pcInProgram_padded hin count)

/-! ## Passes -/

variable (session : Session) (count : Nat) (options : Options) (device : Device)

/-- Once its events are handled, a longer program makes no difference to a pass, unless the run is
to end with the shorter program and does so in this pass. -/
theorem advance_padded_cases (chance : UInt8) :
    (session.padded count).advance options device chance =
        ((session.advance options device chance).1.padded count,
          (session.advance options device chance).2) ∨
      options.exitAtEnd = true ∧
        (session.advance options device chance).2 = some .endOfProgram ∧
        (session.advance options device chance).1.frames = session.frames := by
  have hhalted : (session.padded count).machine.isHalted = session.machine.isHalted := rfl
  unfold advance
  rw [hhalted]
  by_cases hstop : session.machine.isHalted = true
  · rw [if_pos hstop, if_pos hstop]
    exact .inl (session.refresh_padded count device)
  · rw [if_neg hstop, if_neg hstop]
    dsimp only
    rw [step_padded]
    by_cases hend : (options.exitAtEnd && (session.step chance).atEnd) = true
    · rw [if_pos hend]
      refine .inr ⟨(Bool.and_eq_true_iff.mp hend).1, rfl, ?_⟩
      show (session.step chance).frames = session.frames
      rw [step_eq]
    · have hlonger : ¬(options.exitAtEnd && ((session.step chance).padded count).atEnd) = true := by
        rw [Bool.not_eq_true, Bool.and_eq_false_iff] at hend ⊢
        exact hend.imp_right (atEnd_padded · count)
      rw [if_neg hend, if_neg hlonger]
      exact .inl (refresh_padded _ count device)

/-- **A longer program makes no difference to a pass**, unless the run is to end with the shorter
program and does so in this pass. -/
theorem pass_padded_cases (next : Pass) :
    (session.padded count).pass options device next =
        ((session.pass options device next).1.padded count,
          (session.pass options device next).2) ∨
      options.exitAtEnd = true ∧
        (session.pass options device next).2 = some .endOfProgram ∧
        (session.pass options device next).1.frames = session.frames := by
  have hkeypad : (session.padded count).keypad = session.keypad := rfl
  unfold pass
  rw [hkeypad]
  cases session.keypad.afterAll? next.events with
  | none => exact .inl rfl
  | some keypad =>
    exact advance_padded_cases { session with keypad, passes := session.passes + 1 } count options
      device next.chance

/-- **A longer program makes no difference to a session**, unless it is to end with the shorter
program and does so. Then it has shown the first of the frames that it shows with the longer one. -/
theorem play_padded_cases (script : List Pass) :
    (session.padded count).play options device script =
        ((session.play options device script).1.padded count,
          (session.play options device script).2) ∨
      options.exitAtEnd = true ∧
        (session.play options device script).2 = .endOfProgram ∧
        (session.play options device script).1.frames.toList <+:
          ((session.padded count).play options device script).1.frames.toList := by
  induction script generalizing session with
  | nil => exact .inl rfl
  | cons next rest ih =>
    have hcases := session.pass_padded_cases count options device next
    have hshown := frames_prefix_play (session.padded count) options device (next :: rest)
    rw [play] at hshown ⊢
    rw [play]
    generalize session.pass options device next = plain,
      (session.padded count).pass options device next = longer at hcases hshown ⊢
    obtain ⟨after, ending⟩ := plain
    rcases hcases with rfl | ⟨hexit, hending, hframes⟩
    · cases ending with
      | none => exact ih after
      | some ending => exact .inl rfl
    -- The session that ends here has shown no more than the other one has by now.
    · cases hending
      refine .inr ⟨hexit, rfl, ?_⟩
      dsimp only at hframes ⊢
      rw [hframes]
      exact hshown

/-- A report says nothing of the size of the program. -/
theorem report_padded (window : Window) (ending : Ending) :
    (session.padded count).report window ending = session.report window ending := by
  have hclose : (session.padded count).close.log = session.close.log := by
    unfold close padded Machine.padded
    dsimp only
    cases session.machine.halted with
    | none => rfl
    | some fault => rfl
  cases ending with
  | failed error => rfl
  | quit => rw [report, report, hclose]; rfl
  | endOfProgram => rw [report, report, hclose]; rfl

end Session

/-! ## Whole runs -/

section accepted

variable {image : List UInt8} (hne : image ≠ []) {count : Nat}
  (hfits : image.length + count ≤ 3584)

include hne hfits

/-- An image and the image with zeros at its end are both accepted if the second one fits. -/
theorem Machine.load_append_zeros :
    load image = .ok (ofImage image) ∧
      load (image ++ List.replicate count 0) = .ok ((ofImage image).padded count) := by
  rw [load_eq_ok_iff, load_eq_ok_iff, List.length_append, List.length_replicate,
    ofImage_append_zeros]
  exact ⟨⟨hne, by omega, rfl⟩, List.append_ne_nil_of_left_ne_nil hne _, hfits, rfl⟩

/-- A run of either of them begins alike. -/
theorem start_append_zeros (options : Options) (device : Device) :
    Session.start (image ++ List.replicate count 0) options device =
      (Session.start image options device).map (Prod.map id (·.padded count)) := by
  obtain ⟨hload, hlonger⟩ := Machine.load_append_zeros hne hfits
  unfold Session.start
  rw [hload, hlonger]
  dsimp only
  cases openWindow device options.scale with
  | error unopened => rfl
  | ok window =>
    let session : Session := { machine := Machine.ofImage image }
    have hpresent : Session.present { machine := (Machine.ofImage image).padded count } device
        (Machine.ofImage image).state.screen =
          (session.present device (Machine.ofImage image).state.screen).map (·.padded count) :=
      session.present_padded count device _
    dsimp only
    rw [show ((Machine.ofImage image).padded count).state.screen =
      (Machine.ofImage image).state.screen from rfl, hpresent]
    cases session.present device (Machine.ofImage image).state.screen with
    | error error => rfl
    | ok opened => rfl

/-- **Zeros at the end of an image make no difference to a whole run**, unless it is to end with the
program. Then the frames it shows without them are the first of those it shows with them. -/
theorem run_append_zeros (options : Options) (device : Device) (script : List Pass) :
    let plain := run image options device script
    let longer := run (image ++ List.replicate count 0) options device script
    longer = plain ∨
      options.exitAtEnd = true ∧ plain.frames.toList <+: longer.frames.toList := by
  intro plain longer
  have hstart := start_append_zeros hne hfits options device
  rcases hplain : Session.start image options device with report | ⟨window, session⟩
  · rw [hplain] at hstart
    have hreport : plain = report := run_of_start_eq_error hplain script
    have hlonger : longer = report := run_of_start_eq_error hstart script
    exact .inl (hlonger.trans hreport.symm)
  · rw [hplain] at hstart
    have hreport : plain = _ := run_of_start_eq_ok hplain script
    have hlonger : longer = _ := run_of_start_eq_ok hstart script
    rw [hreport, hlonger]
    dsimp only [id]
    rcases session.play_padded_cases count options device script with
      h | ⟨hexit, -, hprefix⟩
    · rw [h]
      exact .inl (Session.report_padded _ _ _ _)
    · rw [Session.frames_report, Session.frames_report]
      exact .inr ⟨hexit, hprefix⟩

end accepted

/-- **Zeros behind a program do not show.** An image that fits in memory with `count` zeros at its
end is accepted with and without them. The two machines give the same answers to every list of steps
and frames being taken, and after it they differ in the size of their program only: a program counter
that is in the shorter program is also in the longer one. A run that is not to end with the program
leaves the same to report for both images, whatever the device and the script are; and any run of
the shorter one shows the first of the frames that the same run of the longer one shows. -/
theorem zeros_behind_a_program_do_not_show {image : List UInt8} (hne : image ≠ []) {count : Nat}
    (hfits : image.length + count ≤ 3584) :
    (∃ plain longer, Machine.load image = .ok plain ∧
      Machine.load (image ++ List.replicate count 0) = .ok longer ∧
      ∀ actions,
        longer.answers actions = plain.answers actions ∧
        longer.run actions = { plain.run actions with programSize := image.length + count } ∧
        ((plain.run actions).pcInProgram = true → (longer.run actions).pcInProgram = true)) ∧
      ∀ options device script,
        let plain := run image options device script
        let longer := run (image ++ List.replicate count 0) options device script
        (options.exitAtEnd = false → longer = plain) ∧
          plain.frames.toList <+: longer.frames.toList := by
  refine ⟨?_, ?_⟩
  · obtain ⟨hload, hlonger⟩ := Machine.load_append_zeros hne hfits
    refine ⟨_, _, hload, hlonger, ?_⟩
    intro actions
    obtain ⟨hanswers, hrun⟩ := (Machine.ofImage image).run_padded count actions
    have hsize : ((Machine.ofImage image).run actions).programSize = image.length :=
      Machine.programSize_run _ _
    rw [hrun]
    refine ⟨hanswers, ?_, fun hin => Machine.pcInProgram_padded hin count⟩
    rw [Machine.padded, hsize]
  · intro options device script plain longer
    rcases run_append_zeros hne hfits options device script with hsame | ⟨hexit, hprefix⟩
    · have hlonger : longer = plain := hsame
      rw [hlonger]
      exact ⟨fun _ => rfl, List.prefix_rfl⟩
    · refine ⟨?_, hprefix⟩
      intro hon
      rw [hexit] at hon
      cases hon

/-- A program of one instruction, which clears the screen, and the same with a word of zeros behind
it. A run that is to end with the program shows the cleared screen only if the zeros are there,
while a run that goes on shows it in any case. -/
theorem zeros_behind_a_program_do_not_show_clearing :
    let image : List UInt8 := [0x00, 0xE0]
    let longer : List UInt8 := [0x00, 0xE0, 0x00, 0x00]
    let script : List Pass := List.replicate 3 { events := [] }
    let clear : Action := .step { keyboard := Keypad.empty.keyboard }
    (run longer {} .reliable script).frames = (run image {} .reliable script).frames ∧
      (run image {} .reliable script).frames.size = 2 ∧
      (run image { exitAtEnd := true } .reliable script).frames.size = 1 ∧
      (run longer { exitAtEnd := true } .reliable script).frames.size = 2 ∧
      (∃ plain padded, Machine.load image = .ok plain ∧ Machine.load longer = .ok padded ∧
        padded.answers [clear, .takeFrame] = plain.answers [clear, .takeFrame] ∧
        (padded.run [clear, .takeFrame]).state = (plain.run [clear, .takeFrame]).state ∧
        (plain.run [clear]).pcInProgram = false ∧ (padded.run [clear]).pcInProgram = true) := by
  intro image longer script clear
  have hevaluated : (run image {} .reliable script).frames.size = 2 ∧
      (run image { exitAtEnd := true } .reliable script).frames.size = 1 ∧
      (run longer { exitAtEnd := true } .reliable script).frames.size = 2 ∧
      ((Machine.ofImage image).run [clear]).pcInProgram = false ∧
      ((Machine.ofImage longer).run [clear]).pcInProgram = true := by
    decide +kernel
  obtain ⟨hgoing, hplain, hlonger, hout, hin⟩ := hevaluated
  have hne : image ≠ [] := by decide
  have hfits : image.length + 2 ≤ 3584 := by decide
  obtain ⟨⟨plain, padded, hload, hloadLonger, hactions⟩, hruns⟩ :=
    zeros_behind_a_program_do_not_show hne hfits
  obtain ⟨-, -, rfl⟩ := Machine.load_eq_ok_iff.mp hload
  obtain ⟨-, -, rfl⟩ := Machine.load_eq_ok_iff.mp hloadLonger
  obtain ⟨hanswers, hrun, -⟩ := hactions [clear, .takeFrame]
  obtain ⟨hsame, -⟩ := hruns {} .reliable script
  refine ⟨congrArg Report.frames (hsame rfl), hgoing, hplain, hlonger, ?_⟩
  exact ⟨_, _, hload, hloadLonger, hanswers, (congrArg Machine.state hrun :), hout, hin⟩

end Chip8
