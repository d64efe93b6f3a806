import Chip8.Proofs.Invariant
import Chip8.Proofs.Schedule
import Chip8.Proofs.Truncation

/-!
# The end of the program

A run that is to end with the program ends as soon as a step leads out of the program, unless the
machine awaits a key or was halted by that step. In both cases the step has left the program counter
where it was, so the exceptions never let a program counter outside the program pass.

* `pc_step_of_not_running`: a step that does not leave the machine running leaves the program
  counter alone.
* `Session.advanceUntil`, `Session.passUntil`, `Session.playUntil`, `runUntil`: a run with another
  test for the end of the program.
* `pcInProgram_of_pass`, `pcInProgram_of_afterAll?`: a pass that goes on keeps the program counter
  in the program, and so do all passes up to the one that ends the run.
* `playUntil_counterOutside`: so the test for a wait can be left out.
* `counter_stays_in_program`: the same for whole runs, and what becomes of a run whose machine
  halts.
-/

namespace Chip8

namespace Machine

/-- **A step that does not leave the machine running leaves the program counter alone**: it fails, or
a wait for a key begins or goes on. -/
theorem pc_step_of_not_running {machine : Machine} {input : Input}
    (hstatus : (machine.step input).2.status ≠ .running) :
    (machine.step input).2.state.pc = machine.state.pc := by
  have htransition := machine.transition input
  generalize machine.executed? input = executed, machine.step input = result
    at htransition hstatus ⊢
  cases htransition with
  | halted hhalted => rfl
  | @polled x hrun hwait =>
    have hwaits : (machine.state.poll x input.keyboard).awaiting ≠ none := fun hdone =>
      hstatus (status_eq_running_iff.mpr ⟨hrun, hdone⟩)
    show (machine.state.poll x input.keyboard).pc = machine.state.pc
    unfold State.poll at hwaits ⊢
    split at hwaits
    · rfl
    · exact absurd rfl hwaits
  | @executed word after hrun hwait hfetch hleads =>
    have hwaits : after.awaiting ≠ none := fun hdone =>
      hstatus (status_eq_running_iff.mpr ⟨hrun, hdone⟩)
    obtain ⟨x, hasks⟩ := Option.ne_none_iff_exists'.mp hwaits
    obtain ⟨-, rfl⟩ := hleads.awaiting_eq_some hwait hasks
    exact UInt16.add_sub_cancel _ _
  | failed hrun hwait hfails => rfl

/-- Such a step leaves the program counter in the program if it was there. -/
theorem pcInProgram_step_of_not_running {machine : Machine} {input : Input}
    (hstatus : (machine.step input).2.status ≠ .running) :
    (machine.step input).2.pcInProgram = machine.pcInProgram := by
  unfold pcInProgram
  rw [pc_step_of_not_running hstatus, programSize_step]

/-- A halted machine does not run. -/
theorem status_ne_running_of_isHalted {machine : Machine} (hhalted : machine.isHalted = true) :
    machine.status ≠ .running := by
  intro hrunning
  rw [isHalted, (status_eq_running_iff.mp hrunning).1] at hhalted
  cases hhalted

/-- A machine that awaits a key does not run. -/
theorem status_ne_running_of_isAwaitingKey {machine : Machine}
    (hwait : machine.isAwaitingKey = true) : machine.status ≠ .running := by
  intro hrunning
  rw [isAwaitingKey, (status_eq_running_iff.mp hrunning).2] at hwait
  cases hwait

end Machine

/-! ## Other tests for the end of the program -/

namespace Session

/-- Whether the program counter is outside the program, never mind a wait for a key. -/
def counterOutside (session : Session) : Bool :=
  !session.machine.pcInProgram

/-- What a pass does once its events are handled, when `ended` tells whether the program has run past
its end. -/
def advanceUntil (ended : Session → Bool) (session : Session) (options : Options) (device : Device)
    (chance : UInt8) : Session × Option Ending :=
  if session.machine.isHalted then
    session.refresh device
  else
    let session := session.step chance
    if options.exitAtEnd && ended session then
      (session.record (.endOfProgram session.machine.state.pc), some .endOfProgram)
    else
      session.refresh device

/-- One pass, when `ended` tells whether the program has run past its end. -/
def passUntil (ended : Session → Bool) (session : Session) (options : Options) (device : Device)
    (pass : Pass) : Session × Option Ending :=
  match session.keypad.afterAll? pass.events with
  | none => (session, some .quit)
  | some keypad =>
    { session with keypad, passes := session.passes + 1 }.advanceUntil ended options device
      pass.chance

/-- The passes of a script up to the one that ends the run, when `ended` tells whether the program
has run past its end. -/
def playUntil (ended : Session → Bool) (options : Options) (device : Device) :
    Session → List Pass → Session × Ending
  | session, [] => (session, .quit)
  | session, next :: rest =>
    match session.passUntil ended options device next with
    | (session, none) => playUntil ended options device session rest
    | (session, some ending) => (session, ending)

end Session

/-- A whole run, when `ended` tells whether the program has run past its end. -/
def runUntil (ended : Session → Bool) (image : List UInt8) (options : Options) (device : Device)
    (script : List Pass) : Report :=
  match Session.start image options device with
  | .error report => report
  | .ok (window, session) =>
    let (session, ending) := session.playUntil ended options device script
    session.report window ending

namespace Session

variable {options : Options} {device : Device}

/-- With the test that runs are made with, a script is played as it is. -/
theorem playUntil_atEnd (session : Session) (script : List Pass) :
    session.playUntil atEnd options device script = session.play options device script := by
  induction script generalizing session with
  | nil => rfl
  | cons next rest ih =>
    have hpass : session.passUntil atEnd options device next =
        session.pass options device next := rfl
    rw [playUntil, play, hpass]
    rcases session.pass options device next with ⟨after, _ | ending⟩
    · exact ih after
    · rfl

/-! ## One pass -/

/-- What the step of a pass is given: the keys that are down after the events of the pass, and its
random byte. -/
def inputOf (session : Session) (next : Pass) : Input where
  keyboard := (next.events.foldl Keypad.after session.keypad).keyboard
  chance := next.chance

/-- The session once the events of a pass are handled. -/
def handled (session : Session) (next : Pass) : Session :=
  { session with
    keypad := next.events.foldl Keypad.after session.keypad
    passes := session.passes + 1 }

@[simp] theorem machine_handled (session : Session) (next : Pass) :
    (session.handled next).machine = session.machine := rfl

/-- The step of a pass steps the machine. -/
@[simp] theorem machine_step_handled (session : Session) (next : Pass) :
    ((session.handled next).step next.chance).machine =
      (session.machine.step (session.inputOf next)).2 := by
  rw [step_eq]
  rfl

/-- Showing the screen, or failing to, takes the frame of the machine and does nothing else to it. -/
theorem machine_refresh (session : Session) (device : Device) :
    (session.refresh device).1.machine = session.machine.unmarked := by
  rw [← Machine.takeFrame_snd_eq_unmarked]
  unfold refresh Machine.takeFrame
  cases session.machine.state.redraw with
  | false => rfl
  | true =>
    simp only [if_true]
    generalize hdrawn : ({ session with machine := { session.machine with
      state := { session.machine.state with redraw := false } } } : Session) = drawn
    rcases drawn.present_cases device session.machine.state.screen with h | ⟨error, h⟩
    · rw [h, present_reliable, ← hdrawn]
    · rw [h, ← hdrawn]

/-- A halted machine sits a pass out. -/
theorem pass_of_halted {session : Session} {next : Pass} (hquits : next.quits = false)
    (hhalted : session.machine.isHalted = true) :
    session.pass options device next = (session.handled next).refresh device := by
  rw [pass_of_not_quits session hquits]
  show (session.handled next).advance options device next.chance = _
  rw [advance, machine_handled, if_pos hhalted]

/-- A machine that is not halted makes the step of a pass. -/
theorem pass_of_not_halted {session : Session} {next : Pass} (hquits : next.quits = false)
    (hrun : session.machine.isHalted = false) :
    session.pass options device next =
      let stepped := (session.handled next).step next.chance
      if options.exitAtEnd && stepped.atEnd then
        (stepped.record (.endOfProgram stepped.machine.state.pc), some .endOfProgram)
      else stepped.refresh device := by
  rw [pass_of_not_quits session hquits]
  show (session.handled next).advance options device next.chance = _
  rw [advance, machine_handled, if_neg (Bool.eq_false_iff.mp hrun)]

/-- The step of a pass leads to the machine after it, but for the mark that its screen is due. -/
theorem machine_pass_of_not_halted {session : Session} {next : Pass} (hquits : next.quits = false)
    (hrun : session.machine.isHalted = false) :
    (session.pass options device next).1.machine.unmarked =
      (session.machine.step (session.inputOf next)).2.unmarked := by
  rw [pass_of_not_halted hquits hrun, ← machine_step_handled]
  dsimp only
  split_ifs
  · rfl
  · rw [machine_refresh]
    rfl

/-- Right after its step a pass has run past the end of the program if the program counter is
outside the program. A wait for a key need not be told apart. -/
theorem atEnd_step_handled {session : Session} (hin : session.machine.pcInProgram = true)
    (next : Pass) :
    ((session.handled next).step next.chance).atEnd =
      !(session.machine.step (session.inputOf next)).2.pcInProgram := by
  unfold atEnd
  rw [machine_step_handled]
  cases hwait : (session.machine.step (session.inputOf next)).2.isAwaitingKey with
  | false => rfl
  | true =>
    have hstatus := Machine.status_ne_running_of_isAwaitingKey hwait
    rw [Machine.pcInProgram_step_of_not_running hstatus, hin]
    rfl

/-- A pass does the same when a wait is not told apart. -/
theorem passUntil_counterOutside {session : Session} (hin : session.machine.pcInProgram = true)
    (next : Pass) :
    session.passUntil counterOutside options device next = session.pass options device next := by
  unfold passUntil pass
  rw [Keypad.afterAll?_eq]
  split_ifs with hquits
  · rfl
  · show (session.handled next).advanceUntil counterOutside options device next.chance =
      (session.handled next).advance options device next.chance
    unfold advanceUntil advance counterOutside
    dsimp only
    rw [atEnd_step_handled hin, machine_step_handled]

/-- A pass that starts in the program goes on when its step halts the machine. -/
theorem ending_of_halts {session : Session} {next : Pass} (hquits : next.quits = false)
    (hrun : session.machine.isHalted = false) (hin : session.machine.pcInProgram = true)
    (hhalts : (session.machine.step (session.inputOf next)).2.isHalted = true) :
    (session.pass options .reliable next).2 = none := by
  have hstatus := Machine.status_ne_running_of_isHalted hhalts
  rw [pass_of_not_halted hquits hrun]
  dsimp only
  rw [atEnd_step_handled hin, Machine.pcInProgram_step_of_not_running hstatus, hin, Bool.not_true,
    Bool.and_false, if_neg Bool.false_ne_true, refresh_reliable]

/-- **A pass that starts in the program and does not end the run ends in the program.** -/
theorem pcInProgram_of_pass {session after : Session} {next : Pass}
    (hexit : options.exitAtEnd = true) (hin : session.machine.pcInProgram = true)
    (hpass : session.pass options device next = (after, none)) :
    after.machine.pcInProgram = true := by
  cases hquits : next.quits with
  | true =>
    rw [pass_of_quits session hquits] at hpass
    cases hpass
  | false =>
    cases hhalted : session.machine.isHalted with
    | true =>
      rw [pass_of_halted hquits hhalted] at hpass
      obtain rfl : ((session.handled next).refresh device).1 = after := congrArg Prod.fst hpass
      rw [machine_refresh]
      exact hin
    | false =>
      rw [pass_of_not_halted hquits hhalted, hexit] at hpass
      dsimp only at hpass
      rw [Bool.true_and, atEnd_step_handled hin] at hpass
      split_ifs at hpass with hend
      · cases hpass
      · obtain rfl : (((session.handled next).step next.chance).refresh device).1 = after :=
          congrArg Prod.fst hpass
        rw [machine_refresh, machine_step_handled]
        rwa [Bool.not_eq_true', Bool.not_eq_false] at hend

/-! ## Whole scripts -/

/-- Passes that start in the program and do not end the run end in the program. -/
theorem pcInProgram_of_afterAll? {session after : Session} {passes : List Pass}
    (hexit : options.exitAtEnd = true) (hin : session.machine.pcInProgram = true)
    (hpasses : session.afterAll? options device passes = some after) :
    after.machine.pcInProgram = true := by
  induction passes generalizing session with
  | nil =>
    cases hpasses
    exact hin
  | cons next rest ih =>
    rw [afterAll?] at hpasses
    rcases hpass : session.pass options device next with ⟨middle, _ | ending⟩
    · rw [hpass] at hpasses
      exact ih (pcInProgram_of_pass hexit hin hpass) hpasses
    · rw [hpass] at hpasses
      cases hpasses

/-- **A script that starts in the program is played alike when a wait is not told apart.** -/
theorem playUntil_counterOutside {session : Session} (hexit : options.exitAtEnd = true)
    (hin : session.machine.pcInProgram = true) (script : List Pass) :
    session.playUntil counterOutside options device script =
      session.play options device script := by
  induction script generalizing session with
  | nil => rfl
  | cons next rest ih =>
    rw [playUntil, play, passUntil_counterOutside hin]
    rcases hpass : session.pass options device next with ⟨after, _ | ending⟩
    · exact ih (pcInProgram_of_pass hexit hin hpass)
    · rfl

/-- A run whose machine is halted ends when it is told to quit. -/
theorem play_of_halted {session : Session} (hhalted : session.machine.isHalted = true)
    (script : List Pass) :
    (session.play options .reliable script).2 = .quit ∧
      (session.play options .reliable script).1.passes =
        session.passes + script.findIdx Pass.quits := by
  induction script generalizing session with
  | nil => exact ⟨rfl, rfl⟩
  | cons next rest ih =>
    rw [play, List.findIdx_cons]
    cases hquits : next.quits with
    | true =>
      rw [pass_of_quits session hquits]
      exact ⟨rfl, rfl⟩
    | false =>
      obtain ⟨after, hpass, hstill, hcount⟩ : ∃ after,
          session.pass options .reliable next = (after, none) ∧
            after.machine.isHalted = true ∧ after.passes = session.passes + 1 := by
        rw [pass_of_halted hquits hhalted, refresh_reliable]
        refine ⟨_, rfl, ?_, rfl⟩
        rw [Machine.takeFrame_snd_eq_unmarked]
        exact hhalted
      obtain ⟨hending, hpasses⟩ := ih hstill
      rw [hpass]
      refine ⟨hending, hpasses.trans ?_⟩
      rw [hcount, cond_false]
      omega

end Session

/-- With the test that runs are made with, a run is as it is. -/
theorem runUntil_atEnd (image : List UInt8) (options : Options) (device : Device)
    (script : List Pass) :
    runUntil Session.atEnd image options device script = run image options device script := by
  unfold runUntil run
  rcases Session.start image options device with report | ⟨window, session⟩
  · rfl
  · simp only [Session.playUntil_atEnd]

/-- **The program counter stays in the program** in a run that is to end with the program. When the
program is accepted, the window opens and the device refuses nothing, the program counter is inside
the program at the start of every pass that the run comes to, the one that ends it included, so that
every step starts inside the program. The step of a pass leads to the machine after the pass, but
for the mark that its screen is due; if the step halts the machine the pass does not end the run,
and if a key is awaited after it the program counter is inside the program. Once the machine is
halted, the run ends with the first pass that is told to quit. And the run is the same when its end
is decided by the program counter alone, never mind a wait for a key. -/
theorem counter_stays_in_program {image : List UInt8} {start : Machine}
    (hload : Machine.load image = .ok start) {options : Options}
    (hexit : options.exitAtEnd = true) (hscale : 64 * options.scale.toNat < 0x80000000)
    (script : List Pass) :
    let InProgram (pc : UInt16) : Prop := 0x200 ≤ pc.toNat ∧ pc.toNat < 0x200 + image.length
    ∃ opened,
      Session.start image options .reliable = .ok (Window.ofScale options.scale, opened) ∧
      (∀ before rest session, script = before ++ rest →
        opened.afterAll? options .reliable before = some session →
          InProgram session.machine.state.pc ∧
          (∀ next later, rest = next :: later → next.quits = false →
            session.machine.isHalted = false →
              let stepped := (session.machine.step (session.inputOf next)).2
              let after := session.pass options .reliable next
              after.1.machine.unmarked = stepped.unmarked ∧
                (stepped.isHalted = true → after.2 = none) ∧
                (stepped.isAwaitingKey = true → InProgram stepped.state.pc)) ∧
          (session.machine.isHalted = true →
            (session.play options .reliable rest).2 = .quit ∧
              (session.play options .reliable rest).1.passes =
                session.passes + rest.findIdx Pass.quits)) ∧
      runUntil Session.counterOutside image options .reliable script =
        runUntil Session.atEnd image options .reliable script ∧
      runUntil Session.atEnd image options .reliable script =
        run image options .reliable script := by
  intro InProgram
  let schedule : Schedule := { image, exitAtEnd := true, script }
  have hstart : Session.start image options .reliable =
      .ok (Window.ofScale options.scale, schedule.session 0) :=
    schedule.start_session hload hscale
  have hnonempty : 0 < image.length := by
    obtain ⟨hne, -, -⟩ := Machine.load_eq_ok_iff.mp hload
    exact List.length_pos_iff.mpr hne
  have hopened : (schedule.session 0).machine.pcInProgram = true := by
    rw [Machine.pcInProgram, decide_eq_true_eq]
    exact ⟨Nat.le_refl 512, Nat.lt_add_of_pos_right hnonempty⟩
  have hplace {machine : Machine} (hsize : machine.programSize = image.length)
      (hin : machine.pcInProgram = true) : InProgram machine.state.pc := by
    rwa [Machine.pcInProgram, hsize, decide_eq_true_eq] at hin
  refine ⟨schedule.session 0, hstart, ?_, ?_, runUntil_atEnd _ _ _ _⟩
  · intro before rest session hscript hreached
    have hin := Session.pcInProgram_of_afterAll? hexit hopened hreached
    have hsize : session.machine.programSize = image.length := by
      have hbefore : before = schedule.script.take before.length := by
        show before = script.take before.length
        rw [hscript, List.take_left]
      have hlength : before.length ≤ schedule.script.length :=
        (List.prefix_iff_eq_take.mpr hbefore).length_le
      rw [hbefore] at hreached
      obtain ⟨-, rfl⟩ := schedule.eq_session_of_afterAll? hexit hlength hreached
      rw [Schedule.session_machine]
      exact (Machine.ofImage image).programSize_run _
    refine ⟨hplace hsize hin, ?_, fun hhalted => Session.play_of_halted hhalted rest⟩
    intro next later _ hquits hrun stepped after
    refine ⟨Session.machine_pass_of_not_halted hquits hrun,
      Session.ending_of_halts hquits hrun hin, ?_⟩
    · intro hwait
      have hstatus := Machine.status_ne_running_of_isAwaitingKey hwait
      apply hplace
      · exact (session.machine.programSize_step _).trans hsize
      · exact (Machine.pcInProgram_step_of_not_running hstatus).trans hin
  · rw [runUntil_atEnd]
    unfold runUntil run
    rw [hstart]
    dsimp only
    rw [Session.playUntil_counterOutside hexit hopened]

/-- A program that awaits a key and then returns without a call, in a run that is to end with the
program. The first pass begins the wait, inside the program; the key comes in the second; the third
pass halts the machine and goes on; and the run ends after one more pass, when it is told to
quit. -/
theorem counter_stays_in_program_return :
    let image : List UInt8 := [0xF5, 0x0A, 0x00, 0xEE]
    let options : Options := { exitAtEnd := true }
    let idle : Pass := { events := [.other] }
    let pressing : Pass := { events := [.keyDown (some 113)] }
    let script : List Pass := [idle, pressing, idle, idle]
    let schedule : Schedule := { image, exitAtEnd := true, script }
    let waiting := ((schedule.session 0).machine.step ((schedule.session 0).inputOf idle)).2
    Machine.load image = .ok (Machine.ofImage image) ∧ options.exitAtEnd = true ∧
      64 * options.scale.toNat < 0x80000000 ∧
      waiting.isAwaitingKey = true ∧ waiting.state.pc.toNat < 0x204 ∧
      (schedule.session 2).machine.isHalted = false ∧
      ((schedule.session 2).pass options .reliable idle).2 = none ∧
      (schedule.session 3).machine.isHalted = true ∧
      ((schedule.session 3).play options .reliable [idle]).2 = .quit ∧
      ((schedule.session 3).play options .reliable [idle]).1.passes = 4 ∧
      runUntil Session.counterOutside image options .reliable script =
        runUntil Session.atEnd image options .reliable script := by
  intro image options idle pressing script schedule waiting
  have hload : Machine.load image = .ok (Machine.ofImage image) :=
    Machine.load_eq_ok_iff.mpr ⟨by decide, by decide, rfl⟩
  have hscale : 64 * options.scale.toNat < 0x80000000 := by decide
  have hevaluated : schedule.endsAt = 4 ∧ waiting.isAwaitingKey = true ∧
      (schedule.session 2).machine.isHalted = false ∧
      ((schedule.session 2).machine.step ((schedule.session 2).inputOf idle)).2.isHalted = true ∧
      (schedule.session 3).machine.isHalted = true := by
    decide +kernel
  obtain ⟨hend, hwait, hrun, hhalts, hhalted⟩ := hevaluated
  obtain ⟨opened, hstart, hpasses, hsame, -⟩ := counter_stays_in_program hload rfl hscale script
  obtain rfl : opened = schedule.session 0 := by
    have hscheduled := schedule.start_session hload hscale
    exact congrArg Prod.snd (Except.ok.inj (hstart.symm.trans hscheduled))
  have hreached (k : Nat) (hk : k ≤ schedule.endsAt) :
      (schedule.session 0).afterAll? options .reliable (script.take k) = some (schedule.session k) :=
    schedule.afterAll?_session rfl hk
  obtain ⟨-, hfirst, -⟩ := hpasses [] script _ rfl (hreached 0 (Nat.zero_le _))
  obtain ⟨-, -, hinside⟩ := hfirst idle [pressing, idle, idle] rfl rfl rfl
  obtain ⟨-, hthird, -⟩ := hpasses [idle, pressing] [idle, idle] _ rfl (hreached 2 (by omega))
  obtain ⟨-, hgoes, -⟩ := hthird idle [idle] rfl rfl hrun
  obtain ⟨-, -, hlast⟩ := hpasses [idle, pressing, idle] [idle] _ rfl (hreached 3 (by omega))
  obtain ⟨hquit, hcount⟩ := hlast hhalted
  exact ⟨hload, rfl, hscale, hwait, (hinside hwait).2, hrun, hgoes hhalts, hhalted, hquit, hcount,
    hsame⟩

end Chip8
