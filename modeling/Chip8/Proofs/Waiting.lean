import Chip8.Proofs.Invariant
import Chip8.Proofs.Keys
import Mathlib.Control.Monad.Basic

/-!
# The wait for a key

* `Machine.Asking`: a running machine whose next instruction awaits a key.
* `Machine.waitingFor`, `Machine.releasedBy`: what that instruction leaves behind, and what the key
  that ends the wait does to it.
* `Asking.step`, `run_of_idle`, `step_of_offers`: how the wait begins, goes on and ends.
* `idle_polls_leave_no_trace`: the three together, and that a run with more or fewer idle looks at
  the keys is the same run otherwise.

The instruction winds the program counter back, and another function moves it on when the wait
ends; in between the timers stand still.
-/

namespace Chip8.Machine

/-- A running machine whose next instruction awaits a key for register `x`. -/
structure Asking (machine : Machine) (x : Register) : Prop where
  /-- The machine runs. -/
  running : machine.status = .running
  /-- Its next instruction awaits a key. -/
  asks : ∃ word, machine.state.memory.word machine.state.pc = .ok word ∧
    Opcode.family ⟨word⟩ = 0xF ∧ Opcode.kk ⟨word⟩ = 0x0A ∧ Opcode.x ⟨word⟩ = x

/-- The machine that awaits a key for register `x`, one beat of the timers later. -/
def waitingFor (machine : Machine) (x : Register) : Machine :=
  { machine with state := { machine.state with
      delay := State.countDown machine.state.delay
      sound := State.countDown machine.state.sound
      awaiting := some x } }

/-- The machine that goes on with a key in register `x`. -/
def releasedBy (machine : Machine) (x : Register) (key : UInt8) : Machine :=
  { machine with state := { machine.state with
      v := machine.state.v.put x key
      pc := machine.state.pc + 2
      awaiting := none } }

/-- The instruction that awaits a key succeeds. It begins the wait and leaves the program counter
on itself. -/
theorem Asking.step {machine : Machine} {x : Register} (hasking : machine.Asking x)
    (input : Input) : machine.step input = (.ok (), machine.waitingFor x) := by
  obtain ⟨hrunning, word, hfetch, hfamily, hkk, rfl⟩ := hasking
  have hdecode : Instruction.decode ⟨word⟩ = .awaitKey (Opcode.x ⟨word⟩) := by
    rw [Instruction.decode_of_family_F hfamily, Instruction.decodeSingle, hkk]
    rfl
  have hback : machine.state.pc + 2 - 2 = machine.state.pc := UInt16.add_sub_cancel _ _
  have htransition := machine.transition input
  generalize machine.executed? input = executed, machine.step input = result at htransition ⊢
  obtain ⟨hrun', hwait'⟩ := status_eq_running_iff.mp hrunning
  cases htransition with
  | halted hhalted => exact absurd (hrun'.symm.trans hhalted) nofun
  | polled hrun hwait => exact absurd (hwait'.symm.trans hwait) nofun
  | executed hrun hwait hfetch' hleads =>
    cases hfetch.symm.trans hfetch'
    rw [hdecode] at hleads
    cases hleads
    rw [State.advanced_pc, hback]
    rfl
  | failed hrun hwait hfails =>
    rcases State.executeNext_eq_error_iff.mp hfails with ⟨hpc, -⟩ | ⟨word', hfetch', hfault⟩
    · have := Memory.lt_of_word_eq_ok hfetch
      omega
    · cases hfetch.symm.trans hfetch'
      rw [hdecode] at hfault
      cases hfault

/-- A look at an idle keyboard changes nothing. -/
theorem step_of_idle {machine : Machine} {x : Register} (h : machine.status = .awaitingKey x)
    {input : Input} (hidle : input.keyboard.Idle) : machine.step input = (.ok (), machine) := by
  obtain ⟨hrun, hwait⟩ := status_eq_awaitingKey_iff.mp h
  rw [step_of_awaiting hrun hwait, State.poll, hidle.pressedKey]

/-- A look at a keyboard that offers a key ends the wait. -/
theorem step_of_offers {machine : Machine} {x : Register} (h : machine.status = .awaitingKey x)
    {input : Input} {key : UInt8} (hoffers : input.keyboard.Offers key) :
    machine.step input = (.ok (), machine.releasedBy x key) := by
  obtain ⟨hrun, hwait⟩ := status_eq_awaitingKey_iff.mp h
  rw [step_of_awaiting hrun hwait, State.poll, hoffers.pressedKey]
  rfl

/-- **Any number of looks at idle keyboards changes nothing**, and all of them succeed. -/
theorem run_of_idle {machine : Machine} {x : Register} (h : machine.status = .awaitingKey x)
    {idle : List Input} (hidle : ∀ input ∈ idle, input.keyboard.Idle) :
    machine.run (idle.map .step) = machine ∧
      machine.answers (idle.map .step) = List.replicate idle.length (.stepped (.ok ())) := by
  induction idle with
  | nil => exact ⟨rfl, rfl⟩
  | cons input rest ih =>
    have hact : machine.act (.step input) = (.stepped (.ok ()), machine) := by
      rw [act, step_of_idle h (hidle input List.mem_cons_self)]
    obtain ⟨hrun, hanswers⟩ := ih fun other hmem => hidle other (List.mem_cons_of_mem input hmem)
    constructor
    · rw [List.map_cons, run, hact]
      exact hrun
    · rw [List.map_cons, answers, hact, List.length_cons, List.replicate_succ]
      exact congrArg (_ :: ·) hanswers

/-- **Idle looks at the keys leave no trace.** When the instruction that awaits a key comes next in
a run, its step succeeds and only begins the wait and lets the timers beat; any number of steps with
idle keyboards succeed and change nothing at all; and the step with the first keyboard that offers a
key puts the key into the register and into no other, ends the wait and moves the program counter
behind the instruction, so that the step after it fetches there. And while a key is awaited at some
point of a run, idle looks at the keys that are put in or left out there change neither the machine
that the run leads to nor what it answers to all other actions. -/
theorem idle_polls_leave_no_trace (start : Machine) (actions : List Action) :
    let machine := start.run actions
    (∀ x, machine.Asking x → ∀ (first : Input) (idle : List Input) (pressing : Input)
        (key : UInt8),
      (∀ input ∈ idle, input.keyboard.Idle) → pressing.keyboard.Offers key →
      let waiting := machine.waitingFor x
      let released := waiting.releasedBy x key
      machine.step first = (.ok (), waiting) ∧
        waiting.status = .awaitingKey x ∧
        waiting.state.delay.toNat = machine.state.delay.toNat - 1 ∧
        waiting.state.sound.toNat = machine.state.sound.toNat - 1 ∧
        waiting.run (idle.map .step) = waiting ∧
        waiting.answers (idle.map .step) = List.replicate idle.length (.stepped (.ok ())) ∧
        waiting.step pressing = (.ok (), released) ∧
        released.status = .running ∧
        released.state.v.get x = key ∧
        (∀ y, y ≠ x → released.state.v.get y = machine.state.v.get y) ∧
        released.state.pc.toNat = machine.state.pc.toNat + 2 ∧
        ∀ next, released.state.executeNext next = do
          let word ← machine.state.memory.word (machine.state.pc + 2)
          (Instruction.decode ⟨word⟩).execute released.state.advanced next) ∧
      ∀ x, machine.status = .awaitingKey x → ∀ (idle : List Input) (rest : List Action),
        (∀ input ∈ idle, input.keyboard.Idle) →
        start.run (actions ++ idle.map .step ++ rest) = start.run (actions ++ rest) ∧
          start.answers (actions ++ idle.map .step ++ rest) =
            start.answers actions ++ List.replicate idle.length (.stepped (.ok ())) ++
              machine.answers rest ∧
          start.answers (actions ++ rest) = start.answers actions ++ machine.answers rest := by
  intro machine
  constructor
  · intro x hasking first idle pressing key hidle hoffers waiting released
    obtain ⟨hrun, -⟩ := status_eq_running_iff.mp hasking.running
    have hwaiting : waiting.status = .awaitingKey x := status_eq_awaitingKey_iff.mpr ⟨hrun, rfl⟩
    have hreleased : released.status = .running := status_eq_running_iff.mpr ⟨hrun, rfl⟩
    obtain ⟨_, hfetch, -⟩ := hasking.asks
    obtain ⟨hstays, hoks⟩ := run_of_idle hwaiting hidle
    have hget (y : Register) :
        released.state.v.get y = if y = x then key else machine.state.v.get y :=
      Registers.get_put machine.state.v x y key
    exact ⟨hasking.step first, hwaiting, State.toNat_countDown _, State.toNat_countDown _, hstays,
      hoks, step_of_offers hwaiting hoffers, hreleased, (hget x).trans (if_pos rfl),
      fun y hne => (hget y).trans (if_neg hne),
      Instruction.toNat_add_two (Memory.lt_of_word_eq_ok hfetch), fun _ => rfl⟩
  · intro x hwaiting idle rest hidle
    obtain ⟨hstays, hoks⟩ := run_of_idle hwaiting hidle
    refine ⟨?_, ?_, answers_append start actions rest⟩
    · rw [run_append, run_append, run_append, hstays]
    · rw [answers_append, answers_append, run_append, hoks, hstays]

/-- A program that awaits a key for VF: two idle looks at the keys change nothing, the seventh key
then goes into VF, and without the idle looks the run leads to the same machine. -/
theorem idle_polls_leave_no_trace_two_polls :
    let asking := ofImage [0xFF, 0x0A]
    let waiting := asking.waitingFor 0xF
    let idle : Input := { keyboard := Keypad.empty.keyboard }
    let pressing : Input := { keyboard := (Keypad.empty.press 7).keyboard }
    asking.Asking 0xF ∧ idle.keyboard.Idle ∧ pressing.keyboard.Offers 7 ∧
      waiting.run [.step idle, .step idle] = waiting ∧
      waiting.step pressing = (.ok (), waiting.releasedBy 0xF 7) ∧
      asking.run [.step idle, .step idle, .step idle, .step pressing] =
        asking.run [.step idle, .step pressing] := by
  intro asking waiting idle pressing
  have hfetch : asking.state.memory.word 0x200 = .ok 0xFF0A := by decide +kernel
  have hasking : asking.Asking 0xF := ⟨rfl, 0xFF0A, hfetch, by decide, by decide, by decide⟩
  have hidle : idle.keyboard.Idle :=
    ⟨Keypad.picksLowest_keyboard _, fun key _ => Keypad.isPressed_empty key⟩
  have hoffers : pressing.keyboard.Offers 7 := by
    refine ⟨Keypad.picksLowest_keyboard _, by decide, by decide, ?_⟩
    intro lower hlower
    change (Keypad.empty.press 7).isPressed lower = false
    rw [Keypad.isPressed_press, if_neg (fun h => UInt8.ne_of_lt hlower h.1),
      Keypad.isPressed_empty]
  have hall : ∀ input ∈ [idle, idle], input.keyboard.Idle := by
    intro input hmem
    rcases List.mem_cons.mp hmem with rfl | hmem
    · exact hidle
    · rw [List.mem_singleton.mp hmem]
      exact hidle
  obtain ⟨hwait, -⟩ := idle_polls_leave_no_trace asking []
  obtain ⟨hstep, hwaiting, -, -, hstays, -, hends, -⟩ :=
    hwait 0xF hasking idle [idle, idle] pressing 7 hall hoffers
  have hmachine : asking.run [.step idle] = waiting := congrArg Prod.snd hstep
  obtain ⟨-, hinsert⟩ := idle_polls_leave_no_trace asking [.step idle]
  obtain ⟨hsame, -⟩ :=
    hinsert 0xF (hmachine ▸ hwaiting) [idle, idle] [.step pressing] hall
  exact ⟨hasking, hidle, hoffers, hstays, hends, hsame⟩

end Chip8.Machine
