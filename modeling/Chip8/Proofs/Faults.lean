import Chip8.Proofs.Decoding
import Chip8.Proofs.Runs
import Mathlib.Control.Monad.Basic

/-!
# When a step fails, and what it leaves behind

* `State.Faults state fault`: the next instruction of the state commits the fault, said on the
  word at the program counter.
* `executeNext_eq_error_iff_faults`: execution fails in these cases and with these faults only.
* `step_fails_exactly_and_atomically`: a wait for a key never fails, a running machine fails exactly
  in these cases, and a failed step leaves the whole state as it was.
-/

namespace Chip8

/-- The faults that the next instruction can commit: its word is not in memory, or it is one of
the instructions that use the stack or memory and finds no room there. A place in memory is named
by the first address outside it, or by where the access begins when that is farther out. -/
inductive State.Faults (state : State) : Fault → Prop
  | fetch (hpc : 0xFFF ≤ state.pc.toNat) :
      Faults state (.memoryOutOfBounds (max state.pc.toNat 0x1000))
  | ret {word : UInt16} (hfetch : state.memory.word state.pc = .ok word)
      (hword : word = 0x00EE) (hempty : state.stack.depth = 0) :
      Faults state (.stackUnderflow state.pc)
  | call {word : UInt16} (hfetch : state.memory.word state.pc = .ok word)
      (hfamily : Opcode.family ⟨word⟩ = 0x2) (hfull : state.stack.depth = 16) :
      Faults state (.stackOverflow 16)
  | draw {word : UInt16} (hfetch : state.memory.word state.pc = .ok word)
      (hfamily : Opcode.family ⟨word⟩ = 0xD)
      (hover : 4096 < state.i.toNat + (Opcode.n ⟨word⟩).val) :
      Faults state (.memoryOutOfBounds (max state.i.toNat 4096))
  | storeDecimal {word : UInt16} (hfetch : state.memory.word state.pc = .ok word)
      (hfamily : Opcode.family ⟨word⟩ = 0xF) (hkk : Opcode.kk ⟨word⟩ = 0x33)
      (hover : 4096 < state.i.toNat + 3) :
      Faults state (.memoryOutOfBounds (max state.i.toNat 4096))
  | transfer {word : UInt16} (hfetch : state.memory.word state.pc = .ok word)
      (hfamily : Opcode.family ⟨word⟩ = 0xF)
      (hkk : Opcode.kk ⟨word⟩ = 0x55 ∨ Opcode.kk ⟨word⟩ = 0x65)
      (hover : 4096 < state.i.toNat + (Opcode.x ⟨word⟩).val + 1) :
      Faults state (.memoryOutOfBounds (max state.i.toNat 4096))

namespace State

variable {state : State} {word : UInt16} {fault : Fault}

/-- A fault of the instruction at the program counter is one of the cases. -/
theorem faults_of_fault? (hfetch : state.memory.word state.pc = .ok word)
    (hfault : (Instruction.decode ⟨word⟩).fault? state.advanced = some fault) :
    state.Faults fault := by
  have hrow := Instruction.decodes ⟨word⟩
  generalize Instruction.decode ⟨word⟩ = instruction at hrow hfault
  cases hrow with
  | ret hword =>
    obtain ⟨hempty, ⟨⟩⟩ := Option.ite_none_right_eq_some.mp hfault
    have hpc : state.pc + 2 - 2 = state.pc := UInt16.add_sub_cancel _ _
    rw [advanced_pc, hpc]
    exact .ret hfetch hword hempty
  | call hfamily =>
    obtain ⟨hfull, ⟨⟩⟩ := Option.ite_none_right_eq_some.mp hfault
    exact .call hfetch hfamily hfull
  | draw hfamily =>
    obtain ⟨hover, ⟨⟩⟩ := Option.ite_none_right_eq_some.mp hfault
    exact .draw hfetch hfamily hover
  | storeDecimal hfamily hkk =>
    obtain ⟨hover, ⟨⟩⟩ := Option.ite_none_right_eq_some.mp hfault
    exact .storeDecimal hfetch hfamily hkk hover
  | save hfamily hkk =>
    obtain ⟨hover, ⟨⟩⟩ := Option.ite_none_right_eq_some.mp hfault
    exact .transfer hfetch hfamily (.inl hkk) hover
  | restore hfamily hkk =>
    obtain ⟨hover, ⟨⟩⟩ := Option.ite_none_right_eq_some.mp hfault
    exact .transfer hfetch hfamily (.inr hkk) hover
  | _ => cases hfault

/-- In every case the instruction at the program counter is at fault. -/
theorem fault?_of_faults (hfetch : state.memory.word state.pc = .ok word)
    (hfaults : state.Faults fault) :
    (Instruction.decode ⟨word⟩).fault? state.advanced = some fault := by
  have hin := Memory.lt_of_word_eq_ok hfetch
  cases hfaults with
  | fetch hpc => omega
  | ret hfetch' hword hempty =>
    cases hfetch.symm.trans hfetch'
    rw [(Instruction.decode_eq_ret_iff ⟨word⟩).mpr hword]
    have hpc : state.pc + 2 - 2 = state.pc := UInt16.add_sub_cancel _ _
    change (if state.stack.depth = 0 then some (Fault.stackUnderflow (state.pc + 2 - 2))
      else none) = some (.stackUnderflow state.pc)
    rw [if_pos hempty, hpc]
  | call hfetch' hfamily hfull =>
    cases hfetch.symm.trans hfetch'
    rw [(Instruction.decode_eq_call_iff ⟨word⟩ _).mpr ⟨hfamily, rfl⟩]
    exact if_pos hfull
  | draw hfetch' hfamily hover =>
    cases hfetch.symm.trans hfetch'
    rw [Instruction.decode_of_family_D hfamily]
    exact if_pos hover
  | storeDecimal hfetch' hfamily hkk hover =>
    cases hfetch.symm.trans hfetch'
    rw [Instruction.decode_of_family_F hfamily, Instruction.decodeSingle, hkk]
    exact if_pos hover
  | transfer hfetch' hfamily hkk hover =>
    cases hfetch.symm.trans hfetch'
    rw [Instruction.decode_of_family_F hfamily, Instruction.decodeSingle]
    rcases hkk with hkk | hkk
    · rw [hkk]
      exact if_pos hover
    · rw [hkk]
      exact if_pos hover

/-- **Execution fails in these cases and no others**, whatever the keys and the chance. -/
theorem executeNext_eq_error_iff_faults (input : Input) :
    state.executeNext input = .error fault ↔ state.Faults fault := by
  rw [executeNext_eq_error_iff]
  constructor
  · rintro (⟨hpc, rfl⟩ | ⟨word, hfetch, hfault⟩)
    · exact .fetch hpc
    · exact faults_of_fault? hfetch hfault
  · intro hfaults
    rcases hfetch : state.memory.word state.pc with reason | word
    · obtain ⟨hpc, rfl⟩ := Memory.word_eq_error_iff.mp hfetch
      left
      refine ⟨hpc, ?_⟩
      cases hfaults with
      | fetch _ => rfl
      | ret hfetch' _ _ => cases hfetch.symm.trans hfetch'
      | call hfetch' _ _ => cases hfetch.symm.trans hfetch'
      | draw hfetch' _ _ => cases hfetch.symm.trans hfetch'
      | storeDecimal hfetch' _ _ _ => cases hfetch.symm.trans hfetch'
      | transfer hfetch' _ _ _ => cases hfetch.symm.trans hfetch'
    · exact .inr ⟨word, rfl, fault?_of_faults hfetch hfaults⟩

end State

namespace Machine

/-- **A step fails exactly in the cases of `Faults`, and then changes nothing but the status.** For
a machine that is not halted: while it awaits a key a step succeeds; otherwise a step fails with a
fault exactly when the next instruction commits it. After a failure the whole state is what it was
and the machine is halted with the fault, and after a success it is not halted. -/
theorem step_fails_exactly_and_atomically {machine : Machine} (hrun : machine.halted = none)
    (input : Input) :
    (machine.isAwaitingKey = true → (machine.step input).1 = .ok ()) ∧
      (machine.isAwaitingKey = false →
        ∀ fault, (machine.step input).1 = .error fault ↔ machine.state.Faults fault) ∧
      (∀ fault, (machine.step input).1 = .error fault →
        (machine.step input).2.state = machine.state ∧
          (machine.step input).2.status = .halted fault) ∧
      ((machine.step input).1 = .ok () → (machine.step input).2.halted = none) := by
  have hawaiting : machine.isAwaitingKey = machine.state.awaiting.isSome := rfl
  rcases hwait : machine.state.awaiting with _ | x
  · rcases hnext : machine.state.executeNext input with fault | after
    · rw [step_of_error hrun hwait hnext]
      refine ⟨?_, ?_, ?_, ?_⟩
      · intro h
        rw [hawaiting, hwait] at h
        cases h
      · intro _ other
        rw [← State.executeNext_eq_error_iff_faults input, hnext, Except.error.injEq,
          Except.error.injEq]
      · intro other hother
        cases hother
        exact ⟨rfl, rfl⟩
      · intro h
        cases h
    · rw [step_of_ok hrun hwait hnext]
      refine ⟨fun _ => rfl, ?_, ?_, fun _ => hrun⟩
      · intro _ other
        rw [← State.executeNext_eq_error_iff_faults input, hnext]
        exact ⟨nofun, nofun⟩
      · intro other hother
        cases hother
  · rw [step_of_awaiting hrun hwait]
    refine ⟨fun _ => rfl, ?_, ?_, fun _ => hrun⟩
    · intro h
      rw [hawaiting, hwait] at h
      cases h
    · intro other hother
      cases hother

/-- A program that begins with a return fails in its first step, and stays where it was. -/
theorem step_fails_exactly_and_atomically_return :
    let machine := ofImage [0x00, 0xEE]
    let input : Input := { keyboard := Keypad.empty.keyboard }
    machine.halted = none ∧ machine.isAwaitingKey = false ∧
      (machine.step input).1 = .error (.stackUnderflow 0x200) ∧
      (machine.step input).2.state = machine.state ∧
      (machine.step input).2.status = .halted (.stackUnderflow 0x200) := by
  intro machine input
  have hfetch : machine.state.memory.word machine.state.pc = .ok 0x00EE := by decide +kernel
  have hrun : machine.halted = none := rfl
  obtain ⟨-, hfails, hkeeps, -⟩ := step_fails_exactly_and_atomically hrun input
  have hfault : (machine.step input).1 = .error (.stackUnderflow 0x200) :=
    (hfails rfl _).mpr (.ret hfetch rfl rfl)
  exact ⟨hrun, rfl, hfault, hkeeps _ hfault⟩

end Machine

end Chip8
