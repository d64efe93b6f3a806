import Chip8.Proofs.Sessions
import Mathlib.Control.Monad.Basic

/-!
# The schedule of a run

What a script makes a machine do, without the session: the keys that are down at each step, the
machine after each step, and where the run ends. Passes are counted from zero, and what is indexed
by `k` is what it is when pass `k` begins.

* `Schedule.keypad`, `Schedule.machine`: the events folded over the keypad, and the loaded machine
  stepped with the keypads so obtained.
* `Schedule.quitAt`, `Schedule.leaves`, `Schedule.endsAt`: the pass that is told to quit, the passes
  that leave the program, and the pass that ends the run.
* `Schedule.session`: the session that the loop has when pass `k` begins, field by field.
* `pass_session`: a pass leads from one of these sessions to the next, or ends the run.
* `run_makes_the_scheduled_steps`: a run goes through these sessions and ends where the schedule
  says. It is told to quit by the passes that hold the wish to quit or the Escape key going down.
-/

namespace Chip8

/-- A program that runs in a window whose device refuses nothing. -/
structure Schedule where
  /-- The program. -/
  image : List UInt8
  /-- Whether to end when the program counter leaves the program. -/
  exitAtEnd : Bool
  /-- The passes; after the last one comes a wish to quit. -/
  script : List Pass

namespace Schedule

variable (schedule : Schedule)

/-- The first pass that is told to quit. -/
def quitAt : Nat :=
  schedule.script.findIdx Pass.quits

/-- The keys that are down after the events of all passes before pass `k`. -/
def keypad (k : Nat) : Keypad :=
  ((schedule.script.take k).flatMap Pass.events).foldl Keypad.after .empty

/-- What the step of pass `k` is given: the keys that are down after its events, and its random
byte. -/
def input (k : Nat) : Input where
  keyboard := (schedule.keypad (k + 1)).keyboard
  chance := (schedule.script[k]?.map Pass.chance).getD 0

/-- The steps of the passes before pass `k`. -/
def steps (k : Nat) : List Action :=
  (List.range k).map fun i => .step (schedule.input i)

/-- The loaded machine after the steps of the passes before pass `k`. -/
def machine (k : Nat) : Machine :=
  (Machine.ofImage schedule.image).run (schedule.steps k)

/-- Whether pass `k` makes a step after which the run is to end: no key is awaited, and the program
counter lies outside the program. -/
def leaves (k : Nat) : Bool :=
  let pc := (schedule.machine (k + 1)).state.pc.toNat
  schedule.exitAtEnd && !(schedule.machine k).isHalted &&
    !(schedule.machine (k + 1)).isAwaitingKey &&
    !decide (0x200 ≤ pc ∧ pc < 0x200 + schedule.image.length)

/-- The pass that ends the run: the first that leaves the program, or else the one that is told to
quit. -/
def endsAt : Nat :=
  (List.range schedule.quitAt).findIdx schedule.leaves

/-- The frames shown before pass `k`: the blank screen, and the screen after each pass whose step
drew on it or cleared it. -/
def frames (k : Nat) : List Frame :=
  { pass := 0, screen := .blank } ::
    ((List.range k).filter fun i => (schedule.machine i).draws (schedule.input i)).map fun i =>
      { pass := i + 1, screen := (schedule.machine (i + 1)).state.screen }

/-- What the step of pass `k` leaves in the log; a halted machine makes no step. -/
def complaints (k : Nat) : List LogEntry :=
  if (schedule.machine k).isHalted then [] else (schedule.machine k).complaints (schedule.input k)

/-- The session when pass `k` begins. The frame of its machine was taken. -/
def session (k : Nat) : Session where
  machine := (schedule.machine k).takeFrame.2
  keypad := schedule.keypad k
  passes := k
  frames := (schedule.frames k).toArray
  log := ((List.range k).flatMap schedule.complaints).toArray

/-- The session once the events of pass `k` are handled. -/
def begun (k : Nat) : Session :=
  { schedule.session k with keypad := schedule.keypad (k + 1), passes := k + 1 }

/-- The session after the step of pass `k`, which a machine that is not halted makes. The frame of
its machine was not taken yet. -/
def stepped (k : Nat) : Session where
  machine := ((schedule.session k).machine.step (schedule.input k)).2
  keypad := schedule.keypad (k + 1)
  passes := k + 1
  frames := (schedule.frames k).toArray
  log := ((List.range (k + 1)).flatMap schedule.complaints).toArray

/-- The session after pass `k`, if that pass leaves the program. -/
def left (k : Nat) : Session :=
  (schedule.stepped k).record (.endOfProgram (schedule.machine (k + 1)).state.pc)

/-! ## From one pass to the next -/

/-- The step of a pass leads to the machine of the next one. -/
theorem machine_succ (k : Nat) :
    schedule.machine (k + 1) = ((schedule.machine k).step (schedule.input k)).2 := by
  unfold machine steps
  rw [List.range_succ, List.map_append, Machine.run_append]
  rfl

/-- The events of a pass go to the keypad. -/
theorem keypad_succ {k : Nat} (hk : k < schedule.script.length) :
    schedule.keypad (k + 1) =
      (schedule.script[k]).events.foldl Keypad.after (schedule.keypad k) := by
  unfold keypad
  rw [← List.take_append_getElem hk, List.flatMap_append, List.foldl_append]
  simp

/-- The random byte of a pass. -/
theorem input_eq {k : Nat} (hk : k < schedule.script.length) :
    schedule.input k =
      { keyboard := (schedule.keypad (k + 1)).keyboard
        chance := (schedule.script[k]).chance } := by
  unfold input
  rw [List.getElem?_eq_getElem hk]
  rfl

/-- Whether the program counter lies in the program, said on the size of the image. -/
theorem pcInProgram_machine (k : Nat) :
    (schedule.machine k).pcInProgram =
      decide (0x200 ≤ (schedule.machine k).state.pc.toNat ∧
        (schedule.machine k).state.pc.toNat < 0x200 + schedule.image.length) := by
  have hsize : (schedule.machine k).programSize = schedule.image.length :=
    (Machine.ofImage schedule.image).programSize_run _
  rw [Machine.pcInProgram, hsize]

/-- The frames shown before the next pass. -/
theorem frames_succ (k : Nat) :
    schedule.frames (k + 1) = schedule.frames k ++
      if (schedule.machine k).draws (schedule.input k) then
        [{ pass := k + 1, screen := (schedule.machine (k + 1)).state.screen }]
      else [] := by
  unfold frames
  rw [List.range_succ, List.filter_append, List.map_append, List.cons_append]
  cases hdraws : (schedule.machine k).draws (schedule.input k) with
  | false => simp [hdraws]
  | true => simp [hdraws]

@[simp] theorem session_machine (k : Nat) :
    (schedule.session k).machine = (schedule.machine k).unmarked :=
  (schedule.machine k).takeFrame_snd_eq_unmarked

/-- The session's machine is halted exactly when the scheduled one is. -/
theorem isHalted_session (k : Nat) :
    (schedule.session k).machine.isHalted = (schedule.machine k).isHalted := by
  rw [session_machine]
  rfl

/-- Right after its step the machine is the scheduled one, marked exactly if the step drew. -/
theorem stepped_machine (k : Nat) :
    (schedule.stepped k).machine =
      { schedule.machine (k + 1) with
        state := { (schedule.machine (k + 1)).state with
          redraw := (schedule.machine k).draws (schedule.input k) } } := by
  change ((schedule.session k).machine.step (schedule.input k)).2 = _
  rw [session_machine, Machine.step_unmarked_snd, machine_succ]

/-- Once its frame is taken, it is the scheduled one with its frame taken. -/
theorem takeFrame_stepped_snd (k : Nat) :
    (schedule.stepped k).machine.takeFrame.2 = (schedule.machine (k + 1)).takeFrame.2 := by
  rw [Machine.takeFrame_snd_eq_unmarked, Machine.takeFrame_snd_eq_unmarked, stepped_machine]
  rfl

/-- A machine that is halted when a pass begins is halted when later ones begin. -/
theorem isHalted_machine_of_le {k n : Nat} (hle : k ≤ n)
    (hhalted : (schedule.machine k).isHalted = true) : (schedule.machine n).isHalted = true := by
  obtain ⟨later, rfl⟩ := Nat.exists_eq_add_of_le hle
  induction later with
  | zero => exact hhalted
  | succ later ih =>
    have hbefore := ih (Nat.le_add_right k later)
    obtain ⟨fault, hfault⟩ := Option.isSome_iff_exists.mp hbefore
    rw [← Nat.add_assoc, machine_succ, Machine.step_of_halted hfault]
    exact hbefore

/-- A pass that leaves the program makes a step. -/
theorem isHalted_machine_of_leaves {k : Nat} (hleaves : schedule.leaves k = true) :
    (schedule.machine k).isHalted = false := by
  unfold leaves at hleaves
  simp only [Bool.and_eq_true, Bool.not_eq_true'] at hleaves
  exact hleaves.1.1.2

/-- **A halted machine sits a pass out.** -/
theorem session_succ_of_halted {k : Nat} (hhalted : (schedule.machine k).isHalted = true) :
    schedule.session (k + 1) = schedule.begun k := by
  obtain ⟨fault, hfault⟩ := Option.isSome_iff_exists.mp hhalted
  have hmachine : schedule.machine (k + 1) = schedule.machine k := by
    rw [machine_succ, Machine.step_of_halted hfault]
  have hframes : schedule.frames (k + 1) = schedule.frames k := by
    rw [frames_succ, Machine.draws_of_halted hfault, if_neg Bool.false_ne_true, List.append_nil]
  have hlog : (List.range (k + 1)).flatMap schedule.complaints =
      (List.range k).flatMap schedule.complaints := by
    rw [List.range_succ, List.flatMap_append, List.flatMap_singleton, complaints, if_pos hhalted,
      List.append_nil]
  unfold begun session
  rw [hmachine, hframes, hlog]

/-- No frame is due when the step of a pass comes. -/
theorem redraw_begun (k : Nat) : (schedule.begun k).machine.state.redraw = false := by
  change (schedule.session k).machine.state.redraw = false
  rw [session_machine]
  rfl

/-- A machine that is not halted makes the step of a pass. -/
theorem step_begun {k : Nat} (hlength : k < schedule.script.length)
    (hrun : (schedule.machine k).isHalted = false) :
    (schedule.begun k).step (schedule.script[k]).chance = schedule.stepped k := by
  have hinput : { keyboard := (schedule.begun k).keypad.keyboard,
                  chance := (schedule.script[k]).chance } = schedule.input k :=
    (schedule.input_eq hlength).symm
  have hlog : ((List.range k).flatMap schedule.complaints).toArray ++
      ((schedule.session k).machine.complaints (schedule.input k)).toArray =
        ((List.range (k + 1)).flatMap schedule.complaints).toArray := by
    rw [List.append_toArray, List.range_succ, List.flatMap_append, List.flatMap_singleton,
      complaints, hrun, if_neg Bool.false_ne_true, session_machine, Machine.complaints_unmarked]
  rw [Session.step_eq, hinput]
  exact congrArg (fun log => { schedule.stepped k with log }) hlog

/-- Whether the program has run past its end after the step of a pass. -/
theorem atEnd_stepped {k : Nat} (hrun : (schedule.machine k).isHalted = false) :
    (schedule.exitAtEnd && (schedule.stepped k).atEnd) = schedule.leaves k := by
  rw [Session.atEnd, stepped_machine, leaves, hrun, ← pcInProgram_machine, Bool.not_false,
    Bool.and_true, ← Bool.and_assoc]
  rfl

/-- Taking the frame after a step completes the pass. -/
theorem refresh_stepped (k : Nat) :
    (schedule.stepped k).refresh .reliable = (schedule.session (k + 1), none) := by
  have hframes : (schedule.frames k).toArray ++
      ((schedule.stepped k).machine.takeFrame.1.toList.map fun screen =>
        { pass := k + 1, screen : Frame }).toArray = (schedule.frames (k + 1)).toArray := by
    rw [List.append_toArray, frames_succ, Machine.takeFrame_fst, stepped_machine]
    cases (schedule.machine k).draws (schedule.input k) with
    | false => rfl
    | true => rfl
  rw [Session.refresh_reliable, takeFrame_stepped_snd]
  exact congrArg (fun frames => ({ schedule.session (k + 1) with frames }, none)) hframes

/-- **A pass leads from one session to the next**, unless it leaves the program. -/
theorem pass_session {options : Options} (hoptions : options.exitAtEnd = schedule.exitAtEnd)
    {k : Nat} (hlength : k < schedule.script.length) (hk : k < schedule.quitAt) :
    (schedule.session k).pass options .reliable schedule.script[k] =
      if schedule.leaves k then (schedule.left k, some .endOfProgram)
      else (schedule.session (k + 1), none) := by
  have hquits : (schedule.script[k]).quits = false := List.not_of_lt_findIdx hk
  have hkeypad : (schedule.script[k]).events.foldl Keypad.after (schedule.session k).keypad =
      schedule.keypad (k + 1) := (schedule.keypad_succ hlength).symm
  have hmachine : (schedule.begun k).machine.isHalted = (schedule.machine k).isHalted :=
    schedule.isHalted_session k
  rw [Session.pass_of_not_quits _ hquits, hkeypad]
  change (schedule.begun k).advance options .reliable _ = _
  unfold Session.advance
  cases hhalted : (schedule.machine k).isHalted with
  | true =>
    have hleaves : schedule.leaves k = false := by
      rw [leaves, hhalted, Bool.not_true, Bool.and_false, Bool.false_and, Bool.false_and]
    rw [hmachine, hhalted, if_pos rfl, Session.refresh_of_not_due _ (schedule.redraw_begun k),
      hleaves, if_neg Bool.false_ne_true, schedule.session_succ_of_halted hhalted]
  | false =>
    have hpc : (schedule.stepped k).machine.state.pc = (schedule.machine (k + 1)).state.pc := by
      rw [stepped_machine]
    rw [hmachine, hhalted, if_neg Bool.false_ne_true, schedule.step_begun hlength hhalted]
    dsimp only
    rw [hoptions, schedule.atEnd_stepped hhalted, hpc, refresh_stepped]
    rfl

/-! ## The whole run -/

/-- The pass that is told to quit is the one after the script at the latest. -/
theorem quitAt_le : schedule.quitAt ≤ schedule.script.length :=
  List.findIdx_le_length

/-- The run ends when it is told to quit at the latest. -/
theorem endsAt_le : schedule.endsAt ≤ schedule.quitAt := by
  have hle : schedule.endsAt ≤ (List.range schedule.quitAt).length := List.findIdx_le_length
  rwa [List.length_range] at hle

/-- A run that does not end early ends when it is told to quit. -/
theorem endsAt_eq_quitAt (h : ¬schedule.endsAt < schedule.quitAt) :
    schedule.endsAt = schedule.quitAt :=
  Nat.le_antisymm schedule.endsAt_le (Nat.le_of_not_lt h)

/-- No pass before the last one leaves the program. -/
theorem leaves_of_lt {k : Nat} (hk : k < schedule.endsAt) : schedule.leaves k = false := by
  have hleaves := List.not_of_lt_findIdx hk
  rwa [List.getElem_range] at hleaves

/-- The last pass leaves the program if it comes before the one that is told to quit. -/
theorem leaves_endsAt (h : schedule.endsAt < schedule.quitAt) :
    schedule.leaves schedule.endsAt = true := by
  have hlt : schedule.endsAt < (List.range schedule.quitAt).length := by
    rwa [List.length_range]
  have hleaves : schedule.leaves (List.range schedule.quitAt)[schedule.endsAt] = true :=
    List.findIdx_getElem
  rwa [List.getElem_range] at hleaves

variable {options : Options}

/-- A pass before the last one comes in the script, and leads to the next session. -/
theorem pass_of_lt_endsAt (hoptions : options.exitAtEnd = schedule.exitAtEnd) {k : Nat}
    (hk : k < schedule.endsAt) :
    ∃ hlength : k < schedule.script.length,
      (schedule.session k).pass options .reliable schedule.script[k] =
        (schedule.session (k + 1), none) := by
  have hquit : k < schedule.quitAt := Nat.lt_of_lt_of_le hk schedule.endsAt_le
  have hlength : k < schedule.script.length := Nat.lt_of_lt_of_le hquit schedule.quitAt_le
  have hpass := schedule.pass_session hoptions hlength hquit
  rw [schedule.leaves_of_lt hk, if_neg Bool.false_ne_true] at hpass
  exact ⟨hlength, hpass⟩

/-- A last pass before the one that is told to quit comes in the script, and leaves the program. -/
theorem pass_endsAt_of_lt (hoptions : options.exitAtEnd = schedule.exitAtEnd)
    (hleft : schedule.endsAt < schedule.quitAt) :
    ∃ hlength : schedule.endsAt < schedule.script.length,
      (schedule.session schedule.endsAt).pass options .reliable schedule.script[schedule.endsAt] =
        (schedule.left schedule.endsAt, some .endOfProgram) := by
  have hlength : schedule.endsAt < schedule.script.length :=
    Nat.lt_of_lt_of_le hleft schedule.quitAt_le
  have hpass := schedule.pass_session hoptions hlength hleft
  rw [schedule.leaves_endsAt hleft, if_pos rfl] at hpass
  exact ⟨hlength, hpass⟩

/-- **The passes before the last one lead to the scheduled sessions.** -/
theorem afterAll?_session (hoptions : options.exitAtEnd = schedule.exitAtEnd) {k : Nat}
    (hk : k ≤ schedule.endsAt) :
    (schedule.session 0).afterAll? options .reliable (schedule.script.take k) =
      some (schedule.session k) := by
  induction k with
  | zero => rfl
  | succ k ih =>
    obtain ⟨hlength, hpass⟩ := schedule.pass_of_lt_endsAt hoptions hk
    rw [← List.take_append_getElem hlength, Session.afterAll?_append _ (ih (Nat.le_of_lt hk)),
      Session.afterAll?, hpass]
    rfl

/-- The last pass ends the run. -/
theorem pass_endsAt (hoptions : options.exitAtEnd = schedule.exitAtEnd)
    (hlength : schedule.endsAt < schedule.script.length) :
    ∃ after ending,
      (schedule.session schedule.endsAt).pass options .reliable schedule.script[schedule.endsAt] =
        (after, some ending) := by
  by_cases hleft : schedule.endsAt < schedule.quitAt
  · obtain ⟨_, hpass⟩ := schedule.pass_endsAt_of_lt hoptions hleft
    exact ⟨_, _, hpass⟩
  · have hquit := schedule.endsAt_eq_quitAt hleft
    have hquits : (schedule.script[schedule.endsAt]).quits = true := by
      simp only [hquit]
      exact List.findIdx_getElem
    exact ⟨_, _, Session.pass_of_quits _ hquits⟩

/-- The run goes through no other sessions. -/
theorem eq_session_of_afterAll? (hoptions : options.exitAtEnd = schedule.exitAtEnd) {k : Nat}
    (hk : k ≤ schedule.script.length) {session : Session}
    (h : (schedule.session 0).afterAll? options .reliable (schedule.script.take k) =
      some session) :
    k ≤ schedule.endsAt ∧ session = schedule.session k := by
  have hle : k ≤ schedule.endsAt := by
    by_contra hlater
    have hlength : schedule.endsAt < schedule.script.length := by omega
    obtain ⟨after, ending, hpass⟩ := schedule.pass_endsAt hoptions hlength
    have hreached := schedule.afterAll?_session hoptions (Nat.le_refl schedule.endsAt)
    obtain ⟨later, rfl⟩ := Nat.exists_eq_add_of_lt (Nat.lt_of_not_le hlater)
    rw [Nat.add_assoc, List.take_add, List.drop_eq_getElem_cons hlength, List.take_succ_cons,
      Session.afterAll?_append _ hreached, Session.afterAll?, hpass] at h
    cases h
  have hreached := schedule.afterAll?_session hoptions hle
  exact ⟨hle, Option.some.inj (h.symm.trans hreached)⟩

/-- **The script is played to the scheduled end.** -/
theorem play_session (hoptions : options.exitAtEnd = schedule.exitAtEnd) :
    (schedule.session 0).play options .reliable schedule.script =
      if schedule.endsAt < schedule.quitAt then (schedule.left schedule.endsAt, .endOfProgram)
      else (schedule.session schedule.quitAt, .quit) := by
  have hreached := schedule.afterAll?_session hoptions (Nat.le_refl schedule.endsAt)
  split
  · next hleft =>
    obtain ⟨hlength, hpass⟩ := schedule.pass_endsAt_of_lt hoptions hleft
    have hparts : schedule.script = schedule.script.take schedule.endsAt ++
        schedule.script[schedule.endsAt] :: schedule.script.drop (schedule.endsAt + 1) := by
      rw [← List.drop_eq_getElem_cons hlength, List.take_append_drop]
    rw [hparts, Session.play_append _ hreached, Session.play, hpass]
  · next hleft =>
    rw [schedule.endsAt_eq_quitAt hleft] at hreached
    have hplay := Session.play_append [] hreached
    rw [List.append_nil] at hplay
    rw [Session.play_take_quitting]
    exact hplay

/-- A run opens its window on the first of the scheduled sessions. -/
theorem start_session {start : Machine} (hload : Machine.load schedule.image = .ok start)
    (hscale : 64 * options.scale.toNat < 0x80000000) :
    Session.start schedule.image options .reliable =
      .ok (Window.ofScale options.scale, schedule.session 0) := by
  obtain ⟨-, -, rfl⟩ := Machine.load_eq_ok_iff.mp hload
  unfold Session.start
  rw [hload]
  dsimp only
  rw [openWindow_reliable hscale]
  dsimp only
  rw [Session.present_reliable]
  rfl

/-- **What the run reports** is what the scheduled end leaves to report. -/
theorem run_eq {start : Machine} (hload : Machine.load schedule.image = .ok start)
    (hscale : 64 * options.scale.toNat < 0x80000000)
    (hoptions : options.exitAtEnd = schedule.exitAtEnd) :
    run schedule.image options .reliable schedule.script =
      if schedule.endsAt < schedule.quitAt then
        (schedule.left schedule.endsAt).report (Window.ofScale options.scale) .endOfProgram
      else (schedule.session schedule.quitAt).report (Window.ofScale options.scale) .quit := by
  unfold run
  rw [schedule.start_session hload hscale]
  dsimp only
  rw [schedule.play_session hoptions]
  split
  · rfl
  · rfl

/-- The frames of a run are those shown before its last pass. -/
theorem frames_run {start : Machine} (hload : Machine.load schedule.image = .ok start)
    (hscale : 64 * options.scale.toNat < 0x80000000)
    (hoptions : options.exitAtEnd = schedule.exitAtEnd) :
    (run schedule.image options .reliable schedule.script).frames.toList =
      schedule.frames schedule.endsAt := by
  rw [schedule.run_eq hload hscale hoptions]
  split
  · rfl
  · next hleft =>
    rw [schedule.endsAt_eq_quitAt hleft]
    rfl

end Schedule

/-- **A run makes the scheduled steps.** When the program is accepted, the window opens and the
device refuses nothing, the run begins with the loaded machine. It goes through the passes up to the
one that ends it, which is the first whose step leaves the program if the run is to end then, and
else the first that is told to quit; what tells a pass to quit is the wish to quit and the Escape
key going down, whose code is 27. When a pass begins, the keys are those of all events before, and
the machine is the loaded one stepped with the keys after the events of each pass, its frame taken.
A pass makes one step if the machine is not halted, and none if it is. A run that is told to quit
ends with the session of that pass's beginning, whatever else the pass and later ones hold; and
either way it ends as it should, also on a halted machine. -/
theorem run_makes_the_scheduled_steps {image : List UInt8} {start : Machine}
    (hload : Machine.load image = .ok start) {options : Options}
    (hscale : 64 * options.scale.toNat < 0x80000000) (script : List Pass) :
    let schedule : Schedule := { image, exitAtEnd := options.exitAtEnd, script }
    let opened := schedule.session 0
    let report := run image options .reliable script
    (∀ pass : Pass,
        pass.quits = true ↔ .quit ∈ pass.events ∨ .keyDown (some 27) ∈ pass.events) ∧
      Session.start image options .reliable = .ok (Window.ofScale options.scale, opened) ∧
      (∀ k ≤ schedule.endsAt,
        opened.afterAll? options .reliable (script.take k) = some (schedule.session k) ∧
          (schedule.session k).machine = (start.run (schedule.steps k)).takeFrame.2) ∧
      (∀ k < schedule.endsAt,
        ((schedule.session k).machine.isHalted = false →
          (schedule.session (k + 1)).machine =
            ((schedule.session k).machine.step (schedule.input k)).2.takeFrame.2) ∧
        ((schedule.session k).machine.isHalted = true →
          schedule.session (k + 1) =
            { schedule.session k with keypad := schedule.keypad (k + 1), passes := k + 1 })) ∧
      (schedule.endsAt < schedule.quitAt →
        opened.play options .reliable script = (schedule.left schedule.endsAt, .endOfProgram) ∧
          (schedule.session schedule.endsAt).machine.isHalted = false ∧
          (schedule.left schedule.endsAt).machine.takeFrame.2 =
            (start.run (schedule.steps (schedule.endsAt + 1))).takeFrame.2 ∧
          report.passes = schedule.endsAt + 1) ∧
      (schedule.endsAt = schedule.quitAt →
        opened.play options .reliable script = (schedule.session schedule.quitAt, .quit) ∧
          report.passes = schedule.quitAt) ∧
      report.result = .ok () ∧
      report = run image options .reliable (script.take schedule.quitAt) := by
  intro schedule opened report
  have hstart : Session.start image options .reliable =
      .ok (Window.ofScale options.scale, opened) := schedule.start_session hload hscale
  have hplay : opened.play options .reliable script = _ := schedule.play_session rfl
  have hreport : report = _ := schedule.run_eq hload hscale rfl
  refine ⟨fun _ => Pass.quits_iff, hstart, ?_, ?_, ?_, ?_, ?_, ?_⟩
  · intro k hk
    obtain ⟨-, -, rfl⟩ := Machine.load_eq_ok_iff.mp hload
    exact ⟨schedule.afterAll?_session rfl hk, rfl⟩
  · intro k _
    constructor
    · intro _
      rw [Machine.takeFrame_snd_eq_unmarked, Schedule.session_machine, Schedule.session_machine,
        (Machine.step_unmarked _ _).2, Schedule.machine_succ]
    · intro h
      rw [schedule.isHalted_session] at h
      exact schedule.session_succ_of_halted h
  · intro hleft
    rw [if_pos hleft] at hplay hreport
    obtain ⟨-, -, rfl⟩ := Machine.load_eq_ok_iff.mp hload
    have hrun := schedule.isHalted_machine_of_leaves (schedule.leaves_endsAt hleft)
    exact ⟨hplay, (schedule.isHalted_session _).trans hrun, schedule.takeFrame_stepped_snd _,
      congrArg Report.passes hreport⟩
  · intro hquit
    rw [if_neg (by omega)] at hplay hreport
    exact ⟨hplay, congrArg Report.passes hreport⟩
  · rw [hreport]
    split
    · rfl
    · rfl
  · change run image options .reliable script = _
    unfold run
    rw [hstart]
    dsimp only
    rw [Session.play_take_quitting]
    rfl

/-- A program that awaits a key for V5 and is over then, in a run that is to end with the program:
the first pass awaits the key, which is no end although the counter will leave the program, the
second finds it down and ends the run, and the wish to quit in the third is not heard. -/
theorem run_makes_the_scheduled_steps_key :
    let image : List UInt8 := [0xF5, 0x0A]
    let options : Options := { exitAtEnd := true }
    let script : List Pass :=
      [{ events := [.other] }, { events := [.keyDown (some 113)] }, { events := [.quit] }]
    let schedule : Schedule := { image, exitAtEnd := true, script }
    Machine.load image = .ok (Machine.ofImage image) ∧ 64 * options.scale.toNat < 0x80000000 ∧
      schedule.quitAt = 2 ∧ schedule.endsAt = 1 ∧
      (schedule.session 0).play options .reliable script = (schedule.left 1, .endOfProgram) ∧
      (schedule.left 1).machine.state.v.get 5 = 4 ∧
      (run image options .reliable script).passes = 2 := by
  intro image options script schedule
  have hload : Machine.load image = .ok (Machine.ofImage image) :=
    Machine.load_eq_ok_iff.mpr ⟨by decide, by decide, rfl⟩
  have hscale : 64 * options.scale.toNat < 0x80000000 := by decide
  have hevaluated : schedule.quitAt = 2 ∧ schedule.endsAt = 1 ∧
      (schedule.left 1).machine.state.v.get 5 = 4 := by
    decide +kernel
  obtain ⟨hquit, hend, hkey⟩ := hevaluated
  obtain ⟨-, -, -, -, hleft, -⟩ := run_makes_the_scheduled_steps hload hscale script
  have hearly : schedule.endsAt < schedule.quitAt := by
    rw [hend, hquit]
    decide
  obtain ⟨hplay, -, -, hpasses⟩ := hleft hearly
  change _ = (schedule.left schedule.endsAt, _) at hplay
  change _ = schedule.endsAt + 1 at hpasses
  rw [hend] at hplay hpasses
  exact ⟨hload, hscale, hquit, hend, hplay, hkey, hpasses⟩

end Chip8
