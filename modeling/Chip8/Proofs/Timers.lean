import Chip8.Proofs.Decoding
import Chip8.Proofs.Runs

/-!
# The timers over a run

* `Timer`: the delay timer and the sound timer, what they show, and the opcodes that set them.
* `Timer.beat`: what a timer shows after an instruction, from what it showed before. A timer that is
  set loses its first beat in the same step.
* `read_step`, `read_run`: a step does to a timer what the instruction does that it executes, if it
  executes one, and a run does what its instructions do one after the other. Looks at the keys and
  failing steps are no instructions, and no timer beats with them.
* `toNat_foldl_beat_of_not_set`, `toNat_foldl_beat_of_set`: what that comes to.
* `timers_count_instructions`: both together.
-/

namespace Chip8

/-- One of the two timers. -/
inductive Timer
  /-- The delay timer. -/
  | delay
  /-- The sound timer. -/
  | sound

namespace Timer

/-- What the timer shows in a state. -/
def read (state : State) : Timer → UInt8
  | delay => state.delay
  | sound => state.sound

/-- The instruction that sets the timer from a register. -/
def set (x : Register) : Timer → Instruction
  | delay => .setDelay x
  | sound => .setSound x

/-- The last two digits of the opcodes that set the timer. -/
def setter : Timer → UInt8
  | delay => 0x15
  | sound => 0x18

/-- Whether an instruction set the timer. -/
def SetBy (timer : Timer) (executed : Executed) : Prop :=
  executed.op.family = 0xF ∧ executed.op.kk = timer.setter

instance (timer : Timer) (executed : Executed) : Decidable (timer.SetBy executed) :=
  inferInstanceAs (Decidable (_ ∧ _))

/-- What the timer shows after an instruction: what it showed before or is set to, one beat
later. -/
def beat (timer : Timer) (shown : UInt8) (executed : Executed) : UInt8 :=
  State.countDown
    (if timer.SetBy executed then executed.before.v.get executed.op.x else shown)

variable (timer : Timer)

/-! ## Single instructions -/

/-- A timer is set by two digits of family F. -/
theorem decode_eq_set_iff (op : Opcode) (x : Register) :
    Instruction.decode op = timer.set x ↔
      op.family = 0xF ∧ op.kk = timer.setter ∧ op.x = x := by
  constructor
  · intro h
    have hrow := Instruction.decodes op
    rw [h] at hrow
    cases timer with
    | delay =>
      cases hrow with
      | setDelay hfamily hkk => exact ⟨hfamily, hkk, rfl⟩
    | sound =>
      cases hrow with
      | setSound hfamily hkk => exact ⟨hfamily, hkk, rfl⟩
  · rintro ⟨hfamily, hkk, rfl⟩
    rw [Instruction.decode_of_family_F hfamily, Instruction.decodeSingle, hkk]
    cases timer with
    | delay => rfl
    | sound => rfl

/-- **An instruction sets the timer or leaves it alone.** -/
theorem read_of_leads {state after : State} {input : Input} {op : Opcode}
    (hleads : (Instruction.decode op).Leads state.advanced input after) :
    timer.read after =
      if timer.SetBy { before := state, op } then state.v.get op.x else timer.read state := by
  by_cases hset : timer.SetBy { before := state, op }
  · rw [if_pos hset]
    rw [(timer.decode_eq_set_iff op op.x).mpr ⟨hset.1, hset.2, rfl⟩] at hleads
    cases timer with
    | delay =>
      cases hleads
      rfl
    | sound =>
      cases hleads
      rfl
  · rw [if_neg hset]
    have hother (x : Register) : Instruction.decode op ≠ timer.set x := by
      intro h
      obtain ⟨hfamily, hkk, -⟩ := (timer.decode_eq_set_iff op x).mp h
      exact hset ⟨hfamily, hkk⟩
    generalize Instruction.decode op = instruction at hleads hother
    cases hleads with
    | setDelay x =>
      cases timer with
      | delay => exact absurd rfl (hother x)
      | sound => rfl
    | setSound x =>
      cases timer with
      | delay => rfl
      | sound => exact absurd rfl (hother x)
    | combine operation x y =>
      rw [State.combine_eq]
      cases timer <;> rfl
    | _ => cases timer <;> rfl

/-! ## Runs -/

/-- A beat after a step takes place on what the step's instruction left. -/
theorem read_tick (state : State) : timer.read state.tick = State.countDown (timer.read state) := by
  cases timer <;> rfl

/-- A step does to a timer what the instruction does that it executes, if it executes one. -/
theorem read_step (machine : Machine) (input : Input) :
    timer.read (machine.step input).2.state =
      (machine.executed? input).toList.foldl timer.beat (timer.read machine.state) := by
  have htransition := machine.transition input
  generalize machine.executed? input = executed, machine.step input = result at htransition ⊢
  cases htransition with
  | halted hhalted => rfl
  | @polled x hrun hwait =>
    show timer.read (machine.state.poll x input.keyboard) = timer.read machine.state
    unfold State.poll
    split
    · rfl
    · cases timer <;> rfl
  | @executed word after hrun hwait hfetch hleads =>
    show timer.read after.tick = timer.beat (timer.read machine.state) _
    rw [read_tick, timer.read_of_leads hleads]
    rfl
  | failed hrun hwait hfails => rfl

/-- **A run does to a timer what its instructions do**, one after the other. -/
theorem read_run (machine : Machine) (actions : List Action) :
    timer.read (machine.run actions).state =
      (machine.history actions).foldl timer.beat (timer.read machine.state) := by
  induction actions generalizing machine with
  | nil => rfl
  | cons action rest ih =>
    cases action with
    | takeFrame =>
      have hread : timer.read machine.takeFrame.2.state = timer.read machine.state := by
        rw [Machine.takeFrame_snd]
        cases timer <;> rfl
      rw [← hread]
      exact ih _
    | step input =>
      rw [Machine.history, List.foldl_append, ← timer.read_step]
      exact ih _

/-- Instructions that do not set a timer take a beat off it each, down to zero. -/
theorem toNat_foldl_beat_of_not_set {history : List Executed}
    (hnone : ∀ executed ∈ history, ¬timer.SetBy executed) (shown : UInt8) :
    (history.foldl timer.beat shown).toNat = shown.toNat - history.length := by
  induction history generalizing shown with
  | nil => rfl
  | cons executed rest ih =>
    rw [List.foldl_cons, ih (fun other hmem => hnone other (List.mem_cons_of_mem _ hmem)), beat,
      if_neg (hnone executed List.mem_cons_self), State.toNat_countDown, List.length_cons]
    omega

/-- The last instruction that sets a timer, and those after it, take a beat each off what it set the
timer to. Nothing before it counts. -/
theorem toNat_foldl_beat_of_set {earlier later : List Executed} {executed : Executed}
    (hset : timer.SetBy executed) (hnone : ∀ other ∈ later, ¬timer.SetBy other) (shown : UInt8) :
    ((earlier ++ executed :: later).foldl timer.beat shown).toNat =
      (executed.before.v.get executed.op.x).toNat - (later.length + 1) := by
  rw [List.foldl_append, List.foldl_cons, toNat_foldl_beat_of_not_set timer hnone, beat,
    if_pos hset, State.toNat_countDown]
  omega

end Timer

/-- **The timers count instructions.** Over a run that executes `k` instructions, none of which sets
a timer, that timer loses `k`, down to zero. If one of them sets it and none after that does, the
timer shows what the register held, less one for this instruction and for each after it. This holds
of either timer whatever becomes of the other, and a tone sounds exactly while the sound timer shows
more than zero. -/
theorem timers_count_instructions (start : Machine) (actions : List Action) :
    let machine := start.run actions
    let history := start.history actions
    (∀ timer : Timer,
      ((∀ executed ∈ history, ¬timer.SetBy executed) →
        (timer.read machine.state).toNat = (timer.read start.state).toNat - history.length) ∧
      ∀ j (hj : j < history.length), timer.SetBy history[j] →
        (∀ later ∈ history.drop (j + 1), ¬timer.SetBy later) →
        (timer.read machine.state).toNat =
          (history[j].before.v.get history[j].op.x).toNat - (history.length - j)) ∧
      (machine.soundActive = true ↔ 0 < (Timer.sound.read machine.state).toNat) := by
  intro machine history
  refine ⟨?_, ?_⟩
  · intro timer
    have hread : timer.read machine.state = history.foldl timer.beat (timer.read start.state) :=
      timer.read_run start actions
    rw [hread]
    refine ⟨fun hnone => timer.toNat_foldl_beat_of_not_set hnone _, ?_⟩
    intro j hj hset hnone
    have hparts : history = history.take j ++ history[j] :: history.drop (j + 1) := by
      rw [← List.drop_eq_getElem_cons hj, List.take_append_drop]
    have hcount : history.length - j = (history.drop (j + 1)).length + 1 := by
      rw [List.length_drop]
      omega
    rw [hcount, ← timer.toNat_foldl_beat_of_set hset hnone (timer.read start.state), ← hparts]
  · rw [Machine.soundActive, decide_eq_true_eq, UInt8.lt_iff_toNat_lt]
    rfl

/-- A program that sets both timers to 9 and then awaits a key. Two looks at the keys, of which the
second finds one, take no beat off a timer; the instructions from the one that sets it on do. -/
theorem timers_count_instructions_wait :
    let start := Machine.ofImage [0x60, 0x09, 0xF0, 0x15, 0xF0, 0x18, 0xF1, 0x0A, 0x12, 0x08]
    let idle : Action := .step { keyboard := Keypad.empty.keyboard }
    let pressing : Action := .step { keyboard := (Keypad.empty.press 7).keyboard }
    let actions := [idle, idle, idle, idle, idle, pressing, idle]
    (start.history actions).length = 5 ∧
      (start.run actions).state.delay.toNat = 9 - 4 ∧
      (start.run actions).state.sound.toNat = 9 - 3 := by
  intro start idle pressing actions
  have hhistory : (start.history actions).length = 5 ∧
      (∃ hj : 1 < (start.history actions).length,
        Timer.delay.SetBy (start.history actions)[1] ∧
        (∀ later ∈ (start.history actions).drop 2, ¬Timer.delay.SetBy later) ∧
        (start.history actions)[1].before.v.get (start.history actions)[1].op.x = 9) ∧
      ∃ hj : 2 < (start.history actions).length,
        Timer.sound.SetBy (start.history actions)[2] ∧
        (∀ later ∈ (start.history actions).drop 3, ¬Timer.sound.SetBy later) ∧
        (start.history actions)[2].before.v.get (start.history actions)[2].op.x = 9 := by
    decide +kernel
  obtain ⟨hlength, ⟨hdelay, hsetDelay, hlaterDelay, hnine⟩,
    ⟨hsound, hsetSound, hlaterSound, hnine'⟩⟩ := hhistory
  obtain ⟨htimers, -⟩ := timers_count_instructions start actions
  refine ⟨hlength, ?_, ?_⟩
  · have hshown := (htimers .delay).2 1 hdelay hsetDelay hlaterDelay
    rwa [hnine, hlength] at hshown
  · have hshown := (htimers .sound).2 2 hsound hsetSound hlaterSound
    rwa [hnine', hlength] at hshown

end Chip8
