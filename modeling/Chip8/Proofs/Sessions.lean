import Chip8.Host.Session
import Chip8.Proofs.Redraw

/-!
# Sessions, pass by pass

* `Session.afterAll?`: the session after a list of passes, unless one of them ends the run.
* `play_append`, `play_take_quitting`: a script is played in parts, and no further than the pass
  that is told to quit.
* `Machine.complaints`: what a step leaves in the log.
* `Session.step_eq`, `Session.present_eq`, `Session.refresh_reliable`: what a step and showing a
  screen do to a session, and the latter when the device refuses nothing.
-/

namespace Chip8

/-- Whether one of the events of a pass ends the run. -/
def Pass.quits (pass : Pass) : Bool :=
  pass.events.any Event.quits

/-- A pass ends the run if it holds the wish to quit or the Escape key going down, and only then. -/
theorem Pass.quits_iff {pass : Pass} :
    pass.quits = true ↔ .quit ∈ pass.events ∨ .keyDown (some 27) ∈ pass.events := by
  rw [quits, List.any_eq_true]
  constructor
  · rintro ⟨event, hmem, hquits⟩
    rcases Event.quits_iff.mp hquits with rfl | rfl
    · exact .inl hmem
    · exact .inr hmem
  · rintro (hmem | hmem)
    · exact ⟨_, hmem, Event.quits_iff.mpr (.inl rfl)⟩
    · exact ⟨_, hmem, Event.quits_iff.mpr (.inr rfl)⟩

/-- The three requests that are made for a frame. -/
def Device.requestFrame (device : Device) (nth : Nat) : Except HostError Unit := do
  device.request .texture nth
  device.request .lock nth
  device.request .copy nth

/-- What a step leaves in the log: nothing, unless it fails. -/
def Machine.complaints (machine : Machine) (input : Input) : List LogEntry :=
  match (machine.step input).1 with
  | .ok () => []
  | .error fault => [.halting machine.state.pc fault, .machineHalted fault]

/-- The mark has no part in what is recorded. -/
theorem Machine.complaints_unmarked (machine : Machine) (input : Input) :
    machine.unmarked.complaints input = machine.complaints input := by
  unfold complaints
  rw [(machine.step_unmarked input).1]
  rfl

namespace Session

/-- The session after a list of passes, or none as soon as one of them ends the run. -/
def afterAll? (options : Options) (device : Device) : Session → List Pass → Option Session
  | session, [] => some session
  | session, next :: rest =>
    match session.pass options device next with
    | (session, none) => afterAll? options device session rest
    | (_, some _) => none

variable {options : Options} {device : Device}

/-! ## Scripts in parts -/

/-- A list of passes in two parts leads on from where its first part leads. -/
theorem afterAll?_append {session middle : Session} {first : List Pass} (second : List Pass)
    (h : session.afterAll? options device first = some middle) :
    session.afterAll? options device (first ++ second) =
      middle.afterAll? options device second := by
  induction first generalizing session with
  | nil =>
    cases h
    rfl
  | cons next rest ih =>
    rw [afterAll?] at h
    rw [List.cons_append, afterAll?]
    rcases hpass : session.pass options device next with ⟨after, _ | ending⟩
    · rw [hpass] at h
      exact ih h
    · rw [hpass] at h
      cases h

/-- A script is played from where its first passes lead. -/
theorem play_append {session middle : Session} {first : List Pass} (second : List Pass)
    (h : session.afterAll? options device first = some middle) :
    session.play options device (first ++ second) = middle.play options device second := by
  induction first generalizing session with
  | nil =>
    cases h
    rfl
  | cons next rest ih =>
    rw [afterAll?] at h
    rw [List.cons_append, play]
    rcases hpass : session.pass options device next with ⟨after, _ | ending⟩
    · rw [hpass] at h
      exact ih h
    · rw [hpass] at h
      cases h

/-- A pass that is told to quit ends the run and does nothing else. -/
theorem pass_of_quits (session : Session) {next : Pass} (h : next.quits = true) :
    session.pass options device next = (session, some .quit) := by
  have hquits : next.events.any Event.quits = true := h
  rw [pass, Keypad.afterAll?_eq, if_pos hquits]

/-- The events of a pass that is not told to quit go to the keypad. -/
theorem pass_of_not_quits (session : Session) {next : Pass} (h : next.quits = false) :
    session.pass options device next =
      { session with
        keypad := next.events.foldl Keypad.after session.keypad
        passes := session.passes + 1 }.advance options device next.chance := by
  have hquits : ¬next.events.any Event.quits = true := Bool.eq_false_iff.mp h
  rw [pass, Keypad.afterAll?_eq, if_neg hquits]

/-- **A script counts up to the pass that is told to quit.** Neither that pass nor a later one does
anything but to end the run. -/
theorem play_take_quitting (session : Session) (script : List Pass) :
    session.play options device script =
      session.play options device (script.take (script.findIdx Pass.quits)) := by
  induction script generalizing session with
  | nil => rfl
  | cons next rest ih =>
    rw [List.findIdx_cons]
    cases hquits : next.quits with
    | true =>
      simp only [cond_true, List.take_zero, play, pass_of_quits session hquits]
    | false =>
      rw [cond_false, List.take_succ_cons, play, play]
      rcases session.pass options device next with ⟨after, _ | ending⟩
      · exact ih after
      · rfl

/-! ## Parts of a pass -/

/-- A step moves the machine on and records a fault. -/
theorem step_eq (session : Session) (chance : UInt8) :
    session.step chance =
      { session with
        machine := (session.machine.step { keyboard := session.keypad.keyboard, chance }).2
        log := session.log ++ (session.machine.complaints
          { keyboard := session.keypad.keyboard, chance }).toArray } := by
  unfold step Machine.complaints
  rcases session.machine.step { keyboard := session.keypad.keyboard, chance } with
    ⟨fault | _, machine⟩
  · have hlog (entry later : LogEntry) :
        (session.log.push entry).push later = session.log ++ [entry, later].toArray := by
      apply Array.ext'
      simp
    exact congrArg (Session.mk machine session.keypad session.passes session.frames) (hlog _ _)
  · simp

/-- A screen that is not due is not shown. -/
theorem refresh_of_not_due {session : Session} (device : Device)
    (h : session.machine.state.redraw = false) : session.refresh device = (session, none) := by
  unfold refresh Machine.takeFrame
  rw [h]
  rfl

/-- Showing a screen adds a frame, unless the device refuses one of the requests for it. -/
theorem present_eq (session : Session) (device : Device) (screen : Screen) :
    session.present device screen =
      (device.requestFrame (session.frames.size + 1)).map fun _ =>
        { session with frames := session.frames.push { pass := session.passes, screen } } := by
  simp only [present, Device.requestFrame, bind, Except.bind]
  cases device.request .texture (session.frames.size + 1) with
  | error error => rfl
  | ok _ =>
    cases device.request .lock (session.frames.size + 1) with
    | error error => rfl
    | ok _ =>
      cases device.request .copy (session.frames.size + 1) with
      | error error => rfl
      | ok _ => rfl

/-- A device that refuses nothing shows a screen. -/
theorem present_reliable (session : Session) (screen : Screen) :
    session.present .reliable screen =
      .ok { session with
        frames := session.frames.push { pass := session.passes, screen } } :=
  rfl

/-- A device that refuses nothing shows the screen if it is due. -/
theorem refresh_reliable (session : Session) :
    session.refresh .reliable =
      ({ session with
        machine := session.machine.takeFrame.2
        frames := session.frames ++ (session.machine.takeFrame.1.toList.map fun screen =>
          { pass := session.passes, screen : Frame }).toArray }, none) := by
  unfold refresh Machine.takeFrame
  cases session.machine.state.redraw with
  | false => simp
  | true =>
    rw [if_pos rfl]
    dsimp only
    rw [present_reliable]
    simp

end Session

/-- A device that refuses nothing opens every window that is not too wide. -/
theorem openWindow_reliable {scale : UInt32} (hscale : 64 * scale.toNat < 0x80000000) :
    openWindow .reliable scale = .ok (Window.ofScale scale) := by
  have hwidth : ¬Window.widthLimit ≤ (Window.ofScale scale).width := by
    change ¬0x80000000 ≤ 64 * scale.toNat
    omega
  simp only [openWindow, if_neg hwidth]
  rfl

end Chip8
