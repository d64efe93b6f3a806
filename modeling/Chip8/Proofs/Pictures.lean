import Chip8.Proofs.Schedule
import Mathlib.Data.List.Destutter

/-!
# The pictures of a run

A session shows its screen only after a step that drew on it or cleared it.

* `Session.screens`: what a session would show that shows its screen at first and after every pass.
* `getLast?_frames`: the last frame shown is the screen, whenever a pass begins.
* `destutter'_map_filter`: leaving out values that repeat the one before does not change what is
  left when equal neighbours are collapsed.
* `destutter_frames`: so the frames are all screens, equal neighbours apart.
* `run_shows_every_picture`: the frames of a run, and that no picture is missing among them.
-/

namespace Chip8

/-- The screens of a session at first and after each pass that does not end the run. -/
def Session.screens (options : Options) (device : Device) : Session → List Pass → List Screen
  | session, [] => [session.machine.state.screen]
  | session, next :: rest =>
    session.machine.state.screen ::
      match session.pass options device next with
      | (after, none) => Session.screens options device after rest
      | (_, some _) => []

/-- Values that repeat the one before make no difference where equal neighbours are collapsed. -/
theorem destutter'_map_filter {α : Type} [DecidableEq α] (value : Nat → α) (changes : Nat → Bool)
    (hkeeps : ∀ k, changes k = false → value (k + 1) = value k) (k count : Nat) :
    (((List.range' k count).filter changes).map fun i => value (i + 1)).destutter' (· ≠ ·)
        (value k) =
      ((List.range' k count).map fun i => value (i + 1)).destutter' (· ≠ ·) (value k) := by
  induction count generalizing k with
  | zero => rfl
  | succ count ih =>
    rw [List.range'_succ, List.filter_cons, List.map_cons]
    cases hchanges : changes k with
    | false =>
      have hsame := hkeeps k hchanges
      rw [if_neg Bool.false_ne_true, List.destutter'_cons_neg _ (not_not.mpr hsame.symm), ← hsame]
      exact ih (k + 1)
    | true =>
      rw [if_pos rfl, List.map_cons]
      by_cases hsame : value k = value (k + 1)
      · rw [List.destutter'_cons_neg _ (not_not.mpr hsame),
          List.destutter'_cons_neg _ (not_not.mpr hsame), hsame]
        exact ih (k + 1)
      · rw [List.destutter'_cons_pos _ hsame, List.destutter'_cons_pos _ hsame, ih (k + 1)]

namespace Schedule

variable (schedule : Schedule)

/-- Only a pass that draws changes the screen. -/
theorem screen_succ {k : Nat}
    (hdraws : (schedule.machine k).draws (schedule.input k) = false) :
    (schedule.machine (k + 1)).state.screen = (schedule.machine k).state.screen := by
  rw [machine_succ, Machine.screen_step hdraws]

/-- **The last frame shown before a pass is the screen.** -/
theorem getLast?_frames (k : Nat) :
    (schedule.frames k).getLast?.map Frame.screen = some (schedule.machine k).state.screen := by
  induction k with
  | zero => rfl
  | succ k ih =>
    rw [frames_succ]
    cases hdraws : (schedule.machine k).draws (schedule.input k) with
    | false => rw [if_neg Bool.false_ne_true, List.append_nil, ih, schedule.screen_succ hdraws]
    | true =>
      rw [if_pos rfl, List.getLast?_concat]
      rfl

/-- **No frame is shown in the pass in which the machine halts, or later.** -/
theorem pass_lt_of_mem_frames {k n : Nat} (hhalted : (schedule.machine k).isHalted = true)
    {frame : Frame} (hmem : frame ∈ schedule.frames n) : frame.pass < k := by
  rcases List.mem_cons.mp hmem with rfl | hmem
  · apply Nat.pos_of_ne_zero
    rintro rfl
    cases hhalted
  · obtain ⟨i, hi, rfl⟩ := List.mem_map.mp hmem
    have hdraws := (List.mem_filter.mp hi).2
    by_contra hlate
    have hlater := schedule.isHalted_machine_of_le (Nat.le_of_not_lt hlate) hhalted
    rw [Machine.isHalted, machine_succ, Machine.halted_step_of_draws hdraws] at hlater
    cases hlater

/-- The screens at first and after each pass that does not end the run. -/
theorem screens_session {options : Options} (hoptions : options.exitAtEnd = schedule.exitAtEnd)
    {k count : Nat} (hcount : k + count = schedule.endsAt) :
    (schedule.session k).screens options .reliable (schedule.script.drop k) =
      (schedule.machine k).state.screen ::
        (List.range' k count).map fun i => (schedule.machine (i + 1)).state.screen := by
  induction count generalizing k with
  | zero =>
    have hlast : k = schedule.endsAt := hcount
    subst hlast
    by_cases hlength : schedule.endsAt < schedule.script.length
    · obtain ⟨after, ending, hpass⟩ := schedule.pass_endsAt hoptions hlength
      rw [List.drop_eq_getElem_cons hlength, Session.screens, hpass, session_machine]
      rfl
    · rw [List.drop_eq_nil_of_le (Nat.le_of_not_lt hlength), Session.screens, session_machine]
      rfl
  | succ count ih =>
    have hlast : k < schedule.endsAt := by omega
    obtain ⟨hlength, hpass⟩ := schedule.pass_of_lt_endsAt hoptions hlast
    have hrest : (k + 1) + count = schedule.endsAt := by omega
    rw [List.drop_eq_getElem_cons hlength, Session.screens, hpass, session_machine,
      List.range'_succ, List.map_cons]
    exact congrArg (_ :: ·) (ih hrest)

/-- **Where equal neighbours are collapsed, the frames shown are all screens.** -/
theorem destutter_frames {options : Options} (hoptions : options.exitAtEnd = schedule.exitAtEnd) :
    ((schedule.frames schedule.endsAt).map Frame.screen).destutter (· ≠ ·) =
      ((schedule.session 0).screens options .reliable schedule.script).destutter (· ≠ ·) := by
  have hframes : (schedule.frames schedule.endsAt).map Frame.screen =
      (schedule.machine 0).state.screen ::
        ((List.range' 0 schedule.endsAt).filter fun i =>
          (schedule.machine i).draws (schedule.input i)).map fun i =>
            (schedule.machine (i + 1)).state.screen := by
    rw [frames, List.map_cons, List.map_map, List.range_eq_range']
    rfl
  have hscreens := schedule.screens_session hoptions (Nat.zero_add schedule.endsAt)
  rw [List.drop_zero] at hscreens
  have hkeeps (k : Nat) : (schedule.machine k).draws (schedule.input k) = false →
      (schedule.machine (k + 1)).state.screen = (schedule.machine k).state.screen :=
    schedule.screen_succ
  rw [hscreens, hframes, List.destutter_cons', List.destutter_cons']
  exact destutter'_map_filter (fun k => (schedule.machine k).state.screen)
    (fun k => (schedule.machine k).draws (schedule.input k)) hkeeps 0 schedule.endsAt

end Schedule

/-- **The mark loses no picture.** When the program is accepted, the window opens and the device
refuses nothing, the frames of a run are the blank screen at first and then the screen after each
pass whose step drew on it or cleared it, the pass that leaves the program apart. So whenever
the run goes on after some passes, the last frame shown is the screen; where equal neighbours are
collapsed, the frames are those of a session that shows its screen at first and after every pass
that does not end the run; and no frame is shown in the pass in which the machine halts, or
later. -/
theorem run_shows_every_picture {image : List UInt8} {start : Machine}
    (hload : Machine.load image = .ok start) {options : Options}
    (hscale : 64 * options.scale.toNat < 0x80000000) (script : List Pass) :
    let schedule : Schedule := { image, exitAtEnd := options.exitAtEnd, script }
    let opened := schedule.session 0
    let shown := (run image options .reliable script).frames.toList
    Session.start image options .reliable = .ok (Window.ofScale options.scale, opened) ∧
      shown = { pass := 0, screen := .blank } ::
        (((List.range schedule.endsAt).filter fun k =>
          (schedule.machine k).draws (schedule.input k)).map fun k =>
            { pass := k + 1, screen := (schedule.machine (k + 1)).state.screen }) ∧
      (∀ passes session, passes <+: script →
        opened.afterAll? options .reliable passes = some session →
          session.frames.back?.map Frame.screen = some session.machine.state.screen) ∧
      (shown.map Frame.screen).destutter (· ≠ ·) =
        (opened.screens options .reliable script).destutter (· ≠ ·) ∧
      ∀ k, (schedule.machine k).isHalted = true → ∀ frame ∈ shown, frame.pass < k := by
  intro schedule opened shown
  have hshown : shown = schedule.frames schedule.endsAt := schedule.frames_run hload hscale rfl
  refine ⟨schedule.start_session hload hscale, hshown, ?_, ?_, ?_⟩
  · intro passes session hprefix hreached
    rw [List.prefix_iff_eq_take.mp hprefix] at hreached
    obtain ⟨-, rfl⟩ := schedule.eq_session_of_afterAll? rfl hprefix.length_le hreached
    change (schedule.frames passes.length).toArray.back?.map Frame.screen = _
    rw [List.back?_toArray, schedule.getLast?_frames, Schedule.session_machine]
    rfl
  · rw [hshown]
    exact schedule.destutter_frames rfl
  · intro k hhalted frame hmem
    rw [hshown] at hmem
    exact schedule.pass_lt_of_mem_frames hhalted hmem

/-- A program that finds the glyph of zero, draws it, clears the screen and returns to no caller,
which halts it in the fourth pass. Screens are shown at first and in the second and third pass, and
none once the machine is halted. -/
theorem run_shows_every_picture_glyph :
    let image : List UInt8 := [0xF0, 0x29, 0xD0, 0x05, 0x00, 0xE0, 0x00, 0xEE]
    let options : Options := {}
    let script : List Pass := List.replicate 6 { events := [.other] }
    let schedule : Schedule := { image, exitAtEnd := false, script }
    let shown := (run image options .reliable script).frames.toList
    Machine.load image = .ok (Machine.ofImage image) ∧ 64 * options.scale.toNat < 0x80000000 ∧
      schedule.endsAt = 6 ∧ shown.map Frame.pass = [0, 2, 3] ∧
      (schedule.machine 2).state.screen ≠ .blank ∧
      (schedule.machine 4).isHalted = true ∧ (∀ frame ∈ shown, frame.pass < 4) ∧
      (shown.map Frame.screen).destutter (· ≠ ·) =
        ((schedule.session 0).screens options .reliable script).destutter (· ≠ ·) := by
  intro image options script schedule shown
  have hload : Machine.load image = .ok (Machine.ofImage image) :=
    Machine.load_eq_ok_iff.mpr ⟨by decide, by decide, rfl⟩
  have hscale : 64 * options.scale.toNat < 0x80000000 := by decide
  have hevaluated : schedule.endsAt = 6 ∧
      ((List.range schedule.endsAt).filter fun k =>
        (schedule.machine k).draws (schedule.input k)) = [1, 2] ∧
      (schedule.machine 2).state.screen ≠ .blank ∧ (schedule.machine 4).isHalted = true := by
    decide +kernel
  obtain ⟨hend, hdrawing, hglyph, hhalted⟩ := hevaluated
  obtain ⟨-, hshown, -, hpictures, hsilent⟩ := run_shows_every_picture hload hscale script
  change shown = _ :: List.map _ ((List.range schedule.endsAt).filter fun k =>
    (schedule.machine k).draws (schedule.input k)) at hshown
  have hpasses : shown.map Frame.pass = [0, 2, 3] := by
    rw [hshown, hdrawing]
    rfl
  exact ⟨hload, hscale, hend, hpasses, hglyph, hhalted, hsilent 4 hhalted, hpictures⟩

end Chip8
