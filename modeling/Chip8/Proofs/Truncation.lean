import Chip8.Proofs.Sessions
import Mathlib.Data.List.Infix

/-!
# Runs that are cut short

A refused request, the end of the program and the end of the script end a run early. What was shown
by then is the beginning of what would have been shown.

* `Stage.openingErrors`, `Stage.frameErrors`: the errors of a run whose device refuses one of the
  requests before the first frame, and of one whose device refuses a request for a frame.
* `Stage.perFrame`: the requests that are made for every frame.
* `CutShort`: what becomes of an outcome when the `nth` frame is not shown.
* `Session.pass_cases`: a pass ends the run by itself, or it shows the screen if it is due; the
  device matters to the second only.
* `refresh_cases`, `frames_prefix_play`: a refusal ends the run, and frames are only ever added.
* `play_prefix_reliable`, `play_prefix_append`: a session shows no more than the beginning of what
  it shows when nothing is refused, and when its script goes on.
* `play_refusing`: a session whose device refuses a request for the `nth` frame is cut short there.
* `run_is_only_cut_short`: the three for whole runs, with the requests before the first frame.
-/

namespace Chip8

/-! ## The device -/

/-- Whether a request is made for every frame, and not just when a window is opened. -/
def Stage.perFrame : Stage → Bool
  | .texture | .lock | .copy => true
  | .init | .video | .window | .renderer | .events => false

/-- The errors of the requests that are made once, before the first frame. -/
def Stage.openingErrors (words : String) : List (Stage × HostError) :=
  [(.init, .device words),
   (.video, .display (.window words)),
   (.window, .display (.window ("SDL error: " ++ words))),
   (.renderer, .display (.window ("SDL error: " ++ words))),
   (.events, .device words)]

/-- The errors of the requests that are made for every frame. -/
def Stage.frameErrors (words : String) : List (Stage × HostError) :=
  [(.texture, .display (.render ("SDL error: " ++ words))),
   (.lock, .display (.render words)),
   (.copy, .display (.render words))]

/-- Every request before the first frame has its error there. -/
theorem Stage.mem_openingErrors {stage : Stage} {error : HostError} {words : String} :
    (stage, error) ∈ openingErrors words ↔
      stage.perFrame = false ∧ error = stage.refusal words := by
  cases stage <;> simp [openingErrors, perFrame, refusal]

/-- Every request for a frame has its error there. -/
theorem Stage.mem_frameErrors {stage : Stage} {error : HostError} {words : String} :
    (stage, error) ∈ frameErrors words ↔
      stage.perFrame = true ∧ error = stage.refusal words := by
  cases stage <;> simp [frameErrors, perFrame, refusal]

/-- A device that refuses one request grants all others. -/
theorem Device.request_refusing (stage other : Stage) (nth count : Nat) (words : String) :
    (Device.refusing stage nth words).request other count =
      if other = stage ∧ count = nth then .error (stage.refusal words) else .ok () := by
  unfold request refusing
  dsimp only
  split_ifs with hsame
  · rw [hsame.1]
  · rfl

/-- A window that opens is as wide as it should be, and it is not too wide. -/
theorem openWindow_eq_ok {device : Device} {scale : UInt32} {window : Window}
    (hopen : openWindow device scale = .ok window) :
    64 * scale.toNat < 0x80000000 ∧ window = Window.ofScale scale := by
  by_cases hwide : Window.widthLimit ≤ (Window.ofScale scale).width
  · simp only [openWindow, if_pos hwide, bind, Except.bind] at hopen
    split at hopen
    · cases hopen
    · cases hopen
  · simp only [openWindow, if_neg hwide, bind, Except.bind] at hopen
    split at hopen
    · cases hopen
    · split at hopen
      · cases hopen
      · cases hopen
        exact ⟨Nat.lt_of_not_le hwide, rfl⟩

/-- A device that grants the requests made for a window opens it. -/
theorem openWindow_refusing_of_perFrame {stage : Stage} (hstage : stage.perFrame = true)
    (nth : Nat) (words : String) (scale : UInt32) :
    openWindow (.refusing stage nth words) scale = openWindow .reliable scale := by
  cases stage with
  | texture => simp [openWindow, Device.request_refusing]
  | lock => simp [openWindow, Device.request_refusing]
  | copy => simp [openWindow, Device.request_refusing]
  | _ => cases hstage

/-- A device that refuses one of them does not. -/
theorem openWindow_refusing_of_not_perFrame {stage : Stage} (hstage : stage.perFrame = false)
    (words : String) {scale : UInt32} (hscale : 64 * scale.toNat < 0x80000000) :
    ∃ asked, openWindow (.refusing stage 1 words) scale =
      .error { window := asked, error := stage.refusal words } := by
  have hwidth : ¬Window.widthLimit ≤ (Window.ofScale scale).width := by
    show ¬0x80000000 ≤ 64 * scale.toNat
    omega
  simp only [openWindow, if_neg hwidth]
  cases stage with
  | init => exact ⟨none, rfl⟩
  | video => exact ⟨none, rfl⟩
  | window => exact ⟨some (Window.ofScale scale), rfl⟩
  | renderer => exact ⟨some (Window.ofScale scale), rfl⟩
  | events => exact ⟨some (Window.ofScale scale), rfl⟩
  | _ => cases hstage

/-! ## Outcomes that are cut short -/

/-- What becomes of an outcome when the `nth` frame is not shown: nothing if there are fewer frames;
otherwise it is a failure, behind all frames before that one. -/
structure CutShort {ending : Type} (nth : Nat) (failed : ending) (plain cut : Session × ending) :
    Prop where
  /-- There are fewer frames. -/
  same : plain.1.frames.size < nth → cut = plain
  /-- The frame is not shown. -/
  failed : nth ≤ plain.1.frames.size → cut.1.frames.size = nth - 1 ∧ cut.2 = failed

/-- Nothing becomes of an outcome with fewer frames. -/
theorem CutShort.of_lt {ending : Type} {nth : Nat} (failed : ending) {plain : Session × ending}
    (hlt : plain.1.frames.size < nth) : CutShort nth failed plain plain where
  same _ := rfl
  failed hle := absurd hlt (Nat.not_lt_of_le hle)

namespace Session

/-! ## One frame -/

/-- A device shows a frame as it should, or it refuses it. -/
theorem present_cases (session : Session) (device : Device) (screen : Screen) :
    session.present device screen = session.present .reliable screen ∨
      ∃ error, session.present device screen = .error error := by
  rw [present_reliable, present_eq]
  cases device.requestFrame (session.frames.size + 1) with
  | error error => exact .inr ⟨error, rfl⟩
  | ok _ => exact .inl rfl

/-- The refusal of a request for the `nth` frame hits that frame and no other. -/
theorem present_refusing {stage : Stage} (hstage : stage.perFrame = true) (nth : Nat)
    (words : String) (session : Session) (screen : Screen) :
    session.present (.refusing stage nth words) screen =
      if session.frames.size + 1 = nth then .error (stage.refusal words)
      else session.present .reliable screen := by
  by_cases hnth : session.frames.size + 1 = nth
  · simp only [present, Device.request_refusing, hnth, and_true, if_true]
    cases stage with
    | texture => rfl
    | lock => rfl
    | copy => rfl
    | _ => cases hstage
  · simp only [present, Device.request_refusing, hnth, and_false, if_false]
    rfl

/-- Showing the screen if it is due adds a frame, adds none, or ends the run. -/
theorem refresh_cases (session : Session) (device : Device) :
    session.refresh device = session.refresh .reliable ∨
      ∃ after ending, after.frames = session.frames ∧
        session.refresh device = (after, some ending) := by
  unfold refresh
  rcases session.machine.takeFrame with ⟨_ | screen, machine⟩
  · exact .inl rfl
  · dsimp only
    rcases present_cases { session with machine } device screen with h | ⟨error, h⟩
    · rw [h]
      exact .inl rfl
    · rw [h]
      exact .inr ⟨{ session with machine }, .failed error, rfl, rfl⟩

/-- Frames are only added. -/
theorem frames_prefix_refresh (session : Session) (device : Device) :
    session.frames.toList <+: (session.refresh device).1.frames.toList := by
  rcases session.refresh_cases device with h | ⟨after, ending, hframes, h⟩
  · rw [h, refresh_reliable, Array.toList_append]
    exact List.prefix_append _ _
  · rw [h, hframes]

/-- A screen that is due is not shown when it would be the `nth` frame that is refused. -/
theorem refresh_refusing {stage : Stage} (hstage : stage.perFrame = true) {nth : Nat}
    (words : String) {session : Session} (hnth : session.frames.size < nth) :
    CutShort nth (some (.failed (stage.refusal words))) (session.refresh .reliable)
      (session.refresh (.refusing stage nth words)) := by
  unfold refresh
  rcases session.machine.takeFrame with ⟨_ | screen, machine⟩
  · exact .of_lt _ hnth
  · have hsize : (session.frames.push { pass := session.passes, screen }).size =
        session.frames.size + 1 := Array.size_push _
    dsimp only
    rw [present_refusing hstage, present_reliable]
    dsimp only
    by_cases hhit : session.frames.size + 1 = nth
    · rw [if_pos hhit]
      refine ⟨?_, ?_⟩
      · intro hlt
        dsimp only at hlt
        omega
      · intro _
        exact ⟨show session.frames.size = nth - 1 by omega, rfl⟩
    · rw [if_neg hhit]
      apply CutShort.of_lt
      dsimp only
      omega

/-! ## Passes -/

/-- A pass ends the run by itself without showing anything, or it shows the screen if it is due. Then
it makes no difference whether the run is to end with the program. -/
theorem pass_cases (session : Session) (options : Options) (next : Pass) :
    (∃ after ending, after.frames = session.frames ∧
      ∀ device, session.pass options device next = (after, some ending)) ∨
      ∃ drawn : Session, drawn.frames = session.frames ∧
        ∀ device, session.pass options device next = drawn.refresh device ∧
          session.pass { options with exitAtEnd := false } device next = drawn.refresh device := by
  -- The device has its say in `refresh` only, so it is left open which one it is.
  by_cases hquits : next.quits
  · exact .inl ⟨session, .quit, rfl, fun _ => pass_of_quits session hquits⟩
  · simp only [pass_of_not_quits session (Bool.eq_false_iff.mpr hquits)]
    generalize hheard : ({ session with
      keypad := next.events.foldl Keypad.after session.keypad
      passes := session.passes + 1 } : Session) = heard
    have hframes : heard.frames = session.frames := by rw [← hheard]
    unfold advance
    by_cases hhalted : heard.machine.isHalted
    · simp only [if_pos hhalted]
      exact .inr ⟨heard, hframes, fun _ => ⟨rfl, rfl⟩⟩
    · have hstepped : (heard.step next.chance).frames = session.frames := by
        rw [step_eq, hframes]
      simp only [if_neg hhalted, Bool.false_and, Bool.false_eq_true, if_false]
      by_cases hend : (options.exitAtEnd && (heard.step next.chance).atEnd) = true
      · simp only [if_pos hend]
        exact .inl ⟨(heard.step next.chance).record (.endOfProgram _), .endOfProgram, hstepped,
          fun _ => rfl⟩
      · simp only [if_neg hend]
        exact .inr ⟨_, hstepped, fun _ => ⟨rfl, rfl⟩⟩

/-- A pass only adds frames. -/
theorem frames_prefix_pass (session : Session) (options : Options) (device : Device) (next : Pass) :
    session.frames.toList <+: (session.pass options device next).1.frames.toList := by
  rcases session.pass_cases options next with ⟨after, ending, hframes, h⟩ | ⟨drawn, hframes, h⟩
  · rw [h, hframes]
  · rw [(h device).1, ← hframes]
    exact drawn.frames_prefix_refresh device

/-- A pass is as it would be if nothing were refused and the run went on behind the end of the
program, or the run ends with it and nothing is shown. -/
theorem pass_eq_or_ends (session : Session) (options : Options) (device : Device) (next : Pass) :
    session.pass options device next =
        session.pass { options with exitAtEnd := false } .reliable next ∨
      ∃ after ending, after.frames = session.frames ∧
        session.pass options device next = (after, some ending) := by
  rcases session.pass_cases options next with ⟨after, ending, hframes, h⟩ | ⟨drawn, hframes, h⟩
  · exact .inr ⟨after, ending, hframes, h device⟩
  · rw [(h device).1, (h .reliable).2]
    refine (drawn.refresh_cases device).imp id ?_
    rintro ⟨after, ending, hafter, hrefresh⟩
    exact ⟨after, ending, hafter.trans hframes, hrefresh⟩

/-- A pass in which the `nth` frame is refused ends the run instead of showing it. -/
theorem pass_refusing {stage : Stage} (hstage : stage.perFrame = true) {nth : Nat}
    (words : String) {session : Session} (hnth : session.frames.size < nth) (options : Options)
    (next : Pass) :
    CutShort nth (some (.failed (stage.refusal words))) (session.pass options .reliable next)
      (session.pass options (.refusing stage nth words) next) := by
  rcases session.pass_cases options next with ⟨after, ending, hframes, h⟩ | ⟨drawn, hframes, h⟩
  · rw [h, h]
    rw [← hframes] at hnth
    exact .of_lt _ hnth
  · rw [(h _).1, (h _).1]
    rw [← hframes] at hnth
    exact refresh_refusing hstage words hnth

/-! ## Scripts -/

/-- Playing a script only adds frames. -/
theorem frames_prefix_play (session : Session) (options : Options) (device : Device)
    (script : List Pass) :
    session.frames.toList <+: (session.play options device script).1.frames.toList := by
  induction script generalizing session with
  | nil => exact List.prefix_rfl
  | cons next rest ih =>
    have hpass := session.frames_prefix_pass options device next
    rw [play]
    generalize session.pass options device next = result at hpass ⊢
    obtain ⟨after, _ | ending⟩ := result
    · exact hpass.trans (ih after)
    · exact hpass

/-- **A session shows the beginning of what it shows when nothing is refused** and when it goes on
behind the end of the program. -/
theorem play_prefix_reliable (session : Session) (options : Options) (device : Device)
    (script : List Pass) :
    (session.play options device script).1.frames.toList <+:
      (session.play { options with exitAtEnd := false } .reliable script).1.frames.toList := by
  induction script generalizing session with
  | nil => exact List.prefix_rfl
  | cons next rest ih =>
    rcases session.pass_eq_or_ends options device next with h | ⟨after, ending, hframes, h⟩
    · rw [play, play, h]
      rcases session.pass { options with exitAtEnd := false } .reliable next with
        ⟨after, _ | ending⟩
      · exact ih after
      · exact List.prefix_rfl
    · rw [play, h]
      dsimp only
      rw [hframes]
      exact session.frames_prefix_play _ _ _

/-- **A session shows the beginning of what it shows when its script goes on.** -/
theorem play_prefix_append (session : Session) (options : Options) (device : Device)
    (script more : List Pass) :
    (session.play options device script).1.frames.toList <+:
      (session.play options device (script ++ more)).1.frames.toList := by
  induction script generalizing session with
  | nil => exact session.frames_prefix_play options device more
  | cons next rest ih =>
    rw [List.cons_append, play, play]
    rcases session.pass options device next with ⟨after, _ | ending⟩
    · exact ih after
    · exact List.prefix_rfl

/-- **A session whose device refuses a request for the `nth` frame is cut short there**, and if it
shows fewer frames the device makes no difference. -/
theorem play_refusing {stage : Stage} (hstage : stage.perFrame = true) {nth : Nat}
    (words : String) {session : Session} (hnth : session.frames.size < nth) (options : Options)
    (script : List Pass) :
    CutShort nth (.failed (stage.refusal words)) (session.play options .reliable script)
      (session.play options (.refusing stage nth words) script) := by
  induction script generalizing session with
  | nil => exact .of_lt _ hnth
  | cons next rest ih =>
    obtain ⟨hsame, hfailed⟩ := pass_refusing hstage words hnth options next
    rw [play, play]
    generalize session.pass options (.refusing stage nth words) next = cut,
      session.pass options .reliable next = plain at hsame hfailed ⊢
    obtain ⟨after, ending⟩ := plain
    by_cases hsize : after.frames.size < nth
    · rw [hsame hsize]
      cases ending with
      | none => exact ih hsize
      | some ending => exact .of_lt _ hsize
    -- The frame is refused in this pass, and shown in it otherwise: the plain run keeps it.
    · obtain ⟨stopped, ended⟩ := cut
      obtain ⟨hstopped, rfl⟩ := hfailed (Nat.le_of_not_lt hsize)
      refine ⟨?_, fun _ => ⟨hstopped, rfl⟩⟩
      intro hlt
      cases ending with
      | none =>
        have hle := (after.frames_prefix_play options .reliable rest).length_le
        simp only [Array.length_toList] at hle
        dsimp only at hlt
        omega
      | some ending => exact absurd hlt hsize

end Session

/-! ## Whole runs -/

/-- A session whose window was opened: the screen was shown once. -/
def Session.opened (machine : Machine) : Session where
  machine
  frames := #[{ pass := 0, screen := machine.state.screen }]

/-- A run begins as it would if nothing were refused, or it does not begin and shows nothing. -/
theorem start_cases (image : List UInt8) (options : Options) (device : Device) :
    (∃ report, report.frames = #[] ∧ Session.start image options device = .error report) ∨
      ∃ opened, Session.start image options device = .ok opened ∧
        Session.start image options .reliable = .ok opened := by
  unfold Session.start
  rcases Machine.load image with fault | machine
  · exact .inl ⟨_, rfl, rfl⟩
  · dsimp only
    rcases hopen : openWindow device options.scale with unopened | window
    · exact .inl ⟨_, rfl, rfl⟩
    · obtain ⟨hscale, rfl⟩ := openWindow_eq_ok hopen
      dsimp only
      rw [openWindow_reliable hscale]
      dsimp only
      rcases Session.present_cases { machine } device machine.state.screen with h | ⟨error, h⟩
      · rw [h, Session.present_reliable]
        exact .inr ⟨_, rfl, rfl⟩
      · rw [h]
        exact .inl ⟨_, rfl, rfl⟩

/-- A report has the frames of its session. -/
theorem Session.frames_report (session : Session) (window : Window) (ending : Ending) :
    (session.report window ending).frames = session.frames := by
  cases ending with
  | _ => rfl

/-- A run that begins leaves what is left to report when its script was played. -/
theorem run_of_start_eq_ok {image : List UInt8} {options : Options} {device : Device}
    {window : Window} {opened : Session}
    (hstart : Session.start image options device = .ok (window, opened)) (script : List Pass) :
    run image options device script =
      (opened.play options device script).1.report window
        (opened.play options device script).2 := by
  rw [run, hstart]

/-- The frames of a run that begins are those of its session. -/
theorem frames_run_of_start_eq_ok {image : List UInt8} {options : Options} {device : Device}
    {window : Window} {opened : Session}
    (hstart : Session.start image options device = .ok (window, opened)) (script : List Pass) :
    (run image options device script).frames = (opened.play options device script).1.frames := by
  rw [run_of_start_eq_ok hstart]
  exact Session.frames_report _ _ _

/-- A run that does not begin leaves its own report. -/
theorem run_of_start_eq_error {image : List UInt8} {options : Options} {device : Device}
    {report : Report} (hstart : Session.start image options device = .error report)
    (script : List Pass) : run image options device script = report := by
  rw [run, hstart]

/-- **A run shows the beginning of what it shows when nothing is refused** and when it goes on
behind the end of the program. -/
theorem run_prefix_reliable (image : List UInt8) (options : Options) (device : Device)
    (script : List Pass) :
    (run image options device script).frames.toList <+:
      (run image { options with exitAtEnd := false } .reliable script).frames.toList := by
  rcases start_cases image options device with ⟨report, hnone, h⟩ | ⟨⟨window, opened⟩, h, hplain⟩
  · rw [run_of_start_eq_error h, hnone]
    exact List.nil_prefix
  · have hplain' : Session.start image { options with exitAtEnd := false } .reliable =
        .ok (window, opened) := hplain
    rw [frames_run_of_start_eq_ok h, frames_run_of_start_eq_ok hplain']
    exact opened.play_prefix_reliable options device script

/-- **A run shows the beginning of what it shows when its script goes on.** -/
theorem run_prefix_append (image : List UInt8) (options : Options) (device : Device)
    (script more : List Pass) :
    (run image options device script).frames.toList <+:
      (run image options device (script ++ more)).frames.toList := by
  rcases start_cases image options device with ⟨report, hnone, h⟩ | ⟨⟨window, opened⟩, h, -⟩
  · rw [run_of_start_eq_error h, run_of_start_eq_error h]
  · rw [frames_run_of_start_eq_ok h, frames_run_of_start_eq_ok h]
    exact opened.play_prefix_append options device script more

section loaded

variable {image : List UInt8} {machine : Machine} (hload : Machine.load image = .ok machine)
  {options : Options} (hscale : 64 * options.scale.toNat < 0x80000000) (script : List Pass)

include hload hscale

omit script in
/-- When nothing is refused, a run of an accepted image begins. -/
theorem start_reliable :
    Session.start image options .reliable =
      .ok (Window.ofScale options.scale, .opened machine) := by
  simp only [Session.start, hload, openWindow_reliable hscale, Session.present_reliable]
  rfl

omit script in
/-- When a request for a frame is refused, it begins unless it was the first frame. -/
theorem start_refusing {stage : Stage} (hstage : stage.perFrame = true) (nth : Nat)
    (words : String) :
    Session.start image options (.refusing stage nth words) =
      if nth = 1 then
        .error { result := .error (stage.refusal words),
                 window := some (Window.ofScale options.scale) }
      else .ok (Window.ofScale options.scale, .opened machine) := by
  have hopen : openWindow (.refusing stage nth words) options.scale =
      .ok (Window.ofScale options.scale) := by
    rw [openWindow_refusing_of_perFrame hstage, openWindow_reliable hscale]
  have hpresent : Session.present { machine } (.refusing stage nth words) machine.state.screen =
      if 1 = nth then .error (stage.refusal words) else .ok (.opened machine) :=
    Session.present_refusing hstage nth words { machine } machine.state.screen
  simp only [Session.start, hload, hopen, hpresent, eq_comm]
  split_ifs
  · rfl
  · rfl

/-- **A run whose device refuses a request for the `nth` frame is cut short there**, and if it shows
fewer frames the device makes no difference. -/
theorem run_refusing {stage : Stage} (hstage : stage.perFrame = true) {nth : Nat} (hnth : 1 ≤ nth)
    (words : String) :
    let report := run image options (.refusing stage nth words) script
    let plain := run image options .reliable script
    (nth ≤ plain.frames.size →
        report.frames.size = nth - 1 ∧ report.result = .error (stage.refusal words)) ∧
      (plain.frames.size < nth → report = plain) := by
  intro report plain
  have hplain := start_reliable hload hscale
  have hstart := start_refusing hload hscale hstage nth words
  have hframes : plain.frames = _ := frames_run_of_start_eq_ok hplain script
  -- The first frame is shown before the script is played, so its refusal is none of a pass.
  by_cases hfirst : nth = 1
  · rw [if_pos hfirst] at hstart
    have hreport : report = _ := run_of_start_eq_error hstart script
    have hshown : 1 ≤ plain.frames.size := by
      rw [hframes]
      exact ((Session.opened machine).frames_prefix_play options .reliable script).length_le
    rw [hreport]
    refine ⟨?_, ?_⟩
    · intro _
      exact ⟨show 0 = nth - 1 by omega, rfl⟩
    · intro hlt
      omega
  · rw [if_neg hfirst] at hstart
    have hopened : (Session.opened machine).frames.size < nth :=
      Nat.lt_of_le_of_ne hnth (Ne.symm hfirst)
    obtain ⟨hsame, hfailed⟩ := Session.play_refusing hstage words hopened options script
    rw [← hframes] at hsame hfailed
    rw [← frames_run_of_start_eq_ok hstart] at hfailed
    have hreport : report = _ := run_of_start_eq_ok hstart script
    refine ⟨?_, ?_⟩
    · intro hle
      obtain ⟨hsize, hended⟩ := hfailed hle
      rw [hended] at hreport
      exact ⟨hsize, congrArg Report.result hreport⟩
    · intro hlt
      rw [hsame hlt] at hreport
      exact hreport.trans (run_of_start_eq_ok hplain script).symm

/-- **A run whose device refuses one of the requests before the first frame shows nothing.** -/
theorem run_refusing_of_not_perFrame {stage : Stage} (hstage : stage.perFrame = false)
    (words : String) :
    let report := run image options (.refusing stage 1 words) script
    report.frames = #[] ∧ report.result = .error (stage.refusal words) := by
  obtain ⟨asked, hopen⟩ := openWindow_refusing_of_not_perFrame hstage words hscale
  have hstart : Session.start image options (.refusing stage 1 words) =
      .error { result := .error (stage.refusal words), window := asked } := by
    simp only [Session.start, hload, hopen]
  rw [run_of_start_eq_error hstart]
  exact ⟨rfl, rfl⟩

end loaded

/-- An image that is not accepted takes no space or too much. -/
theorem Machine.fault_of_load_eq_error {image : List UInt8} {fault : Fault}
    (hload : load image = .error fault) : fault = .outOfSpace image.length 3584 := by
  by_cases hsize : image = [] ∨ Memory.programCapacity < image.length
  · rw [load, if_pos hsize] at hload
    cases hload
    rfl
  · have hfits : load image = .ok (ofImage image) :=
      load_eq_ok_iff.mpr ⟨(not_or.mp hsize).1, Nat.le_of_not_lt (not_or.mp hsize).2, rfl⟩
    rw [hfits] at hload
    cases hload

/-- A run of such an image reports it, and the device is not asked for anything. -/
theorem run_of_load_eq_error {image : List UInt8} {fault : Fault}
    (hload : Machine.load image = .error fault) (options : Options) (device : Device)
    (script : List Pass) :
    run image options device script = { result := .error (.program fault) } := by
  apply run_of_start_eq_error
  simp only [Session.start, hload]

/-- **Runs are only ever cut short.** Whatever the device refuses, and whether or not a run is to
end with the program, it shows the beginning of what it shows when nothing is refused and it goes on
behind the end of the program; and it shows the beginning of what it shows when its script goes on.

When the device refuses a request for the `nth` frame, all frames before that one are shown and the
run ends with the words of the device, as an error of rendering; if there are fewer frames the
refusal makes no difference. When it refuses one of the requests before the first frame, nothing is
shown, and the run ends with the words of the device, as an error of the window if it was asked for
a screen, a window or a renderer, and as they are otherwise. And an image that is not accepted is
reported before the device is asked for anything. -/
theorem run_is_only_cut_short (image : List UInt8) (options : Options) (script : List Pass) :
    (∀ device, (run image options device script).frames.toList <+:
        (run image { options with exitAtEnd := false } .reliable script).frames.toList) ∧
      (∀ device more, (run image options device script).frames.toList <+:
        (run image options device (script ++ more)).frames.toList) ∧
      (∀ fault, Machine.load image = .error fault →
        fault = .outOfSpace image.length 3584 ∧
          ∀ device, run image options device script = { result := .error (.program fault) }) ∧
      ((∃ machine, Machine.load image = .ok machine) → 64 * options.scale.toNat < 0x80000000 →
        ∀ words,
          (∀ stage error, (stage, error) ∈ Stage.frameErrors words →
            ∀ nth, 1 ≤ nth →
              let report := run image options (.refusing stage nth words) script
              let plain := run image options .reliable script
              (nth ≤ plain.frames.size →
                  report.frames.size = nth - 1 ∧ report.result = .error error) ∧
                (plain.frames.size < nth → report = plain)) ∧
          ∀ stage error, (stage, error) ∈ Stage.openingErrors words →
            let report := run image options (.refusing stage 1 words) script
            report.frames = #[] ∧ report.result = .error error) := by
  refine ⟨?_, ?_, ?_, ?_⟩
  · intro device
    exact run_prefix_reliable image options device script
  · intro device more
    exact run_prefix_append image options device script more
  · intro fault hload
    refine ⟨Machine.fault_of_load_eq_error hload, ?_⟩
    intro device
    exact run_of_load_eq_error hload options device script
  · rintro ⟨machine, hload⟩ hscale words
    refine ⟨?_, ?_⟩
    · intro stage error hmem nth hnth
      obtain ⟨hstage, rfl⟩ := Stage.mem_frameErrors.mp hmem
      exact run_refusing hload hscale script hstage hnth words
    · intro stage error hmem
      obtain ⟨hstage, rfl⟩ := Stage.mem_openingErrors.mp hmem
      exact run_refusing_of_not_perFrame hload hscale script hstage words

/-- A program that clears the screen for ever, in a run of four passes: three frames are shown. The
second or a fourth may be refused, or the window; and an empty image is refused. -/
theorem run_is_only_cut_short_clearing :
    let image : List UInt8 := [0x00, 0xE0, 0x12, 0x00]
    let options : Options := {}
    let script : List Pass := List.replicate 4 { events := [] }
    let plain := run image options .reliable script
    plain.frames.size = 3 ∧
      (run image options (.refusing .copy 2 "gone") script).frames.size = 1 ∧
      (run image options (.refusing .copy 2 "gone") script).result =
        .error (.display (.render "gone")) ∧
      run image options (.refusing .copy 4 "gone") script = plain ∧
      (run image options (.refusing .window 1 "gone") script).frames = #[] ∧
      (run image options (.refusing .window 1 "gone") script).result =
        .error (.display (.window "SDL error: gone")) ∧
      run [] options .reliable script = { result := .error (.program (.outOfSpace 0 3584)) } := by
  intro image options script plain
  have hload : ∃ machine, Machine.load image = .ok machine :=
    ⟨_, Machine.load_eq_ok_iff.mpr ⟨by decide, by decide, rfl⟩⟩
  have hscale : 64 * options.scale.toNat < 0x80000000 := by decide
  have hsize : (run image options .reliable script).frames.size = 3 := by decide +kernel
  obtain ⟨-, -, -, hrefused⟩ := run_is_only_cut_short image options script
  obtain ⟨-, -, hrejected, -⟩ := run_is_only_cut_short [] options script
  obtain ⟨hcopy, hopening⟩ := hrefused hload hscale "gone"
  have hshowing := hcopy .copy (.display (.render "gone")) (by decide)
  obtain ⟨hsecond, -⟩ := hshowing 2 (by decide)
  obtain ⟨-, hfourth⟩ := hshowing 4 (by decide)
  obtain ⟨hframes, hresult⟩ := hsecond (by omega)
  obtain ⟨hnone, hwindow⟩ := hopening .window (.display (.window "SDL error: gone")) (by decide)
  exact ⟨hsize, hframes, hresult, hfourth (by omega), hnone, hwindow,
    (hrejected _ rfl).2 .reliable⟩

end Chip8
