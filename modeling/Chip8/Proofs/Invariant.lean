import Chip8.Proofs.Decoding
import Chip8.Proofs.Runs

/-!
# What holds of every reachable machine

* `Machine.Sound`: the bounds that every operation keeps. The program counter stays a little
  above memory at most, return addresses point behind an instruction in memory, and a machine that
  awaits a key stands on the instruction that asked for it.
* `Reachable.sound`: every reachable machine is sound.

The bound on the program counter needs the one on return addresses, since a return copies one into
it, and the bound on return addresses needs that an instruction was fetched from memory. The wait
for a key needs the word at the counter, since the end of the wait moves the counter past it.
-/

namespace Chip8

/-! ## What an instruction does to the flow of control -/

namespace Instruction

variable {state after : State} {input : Input} {instruction : Instruction}

/-- Moving past an instruction in memory does not wrap around. -/
theorem toNat_add_two {pc : UInt16} (hpc : pc.toNat + 1 < 4096) :
    (pc + 2).toNat = pc.toNat + 2 := by
  have htwo : (2 : UInt16).toNat = 2 := rfl
  rw [UInt16.toNat_add, htwo]
  omega

/-- From a counter inside memory an instruction leads at most a computed jump away. -/
theorem Leads.pc_le (hleads : instruction.Leads state.advanced input after)
    (hpc : state.pc.toNat + 1 < 4096)
    (hstack : ∀ address ∈ state.stack.toList, address.toNat ≤ 0x1000) :
    after.pc.toNat ≤ 0x10FE := by
  have hnext := toNat_add_two hpc
  cases hleads with
  | @ret pc stack hpop =>
    have hmem : pc ∈ state.stack.toList := by
      have hpopped : state.stack.toList = stack.toList ++ [pc] := CallStack.toList_pop? hpop
      rw [hpopped]
      exact List.mem_append_right _ (List.mem_singleton_self pc)
    have := hstack pc hmem
    change pc.toNat ≤ 0x10FE
    omega
  | jump target =>
    have := target.isLt
    change target.toWord.toNat ≤ 0x10FE
    rw [Address.toNat_toWord]
    omega
  | call target _ =>
    have := target.isLt
    change target.toWord.toNat ≤ 0x10FE
    rw [Address.toNat_toWord]
    omega
  | skip _ =>
    have htwo : (2 : UInt16).toNat = 2 := rfl
    change (state.pc + 2 + 2).toNat ≤ 0x10FE
    rw [UInt16.toNat_add, hnext, htwo]
    omega
  | jumpFrom target =>
    have := target.isLt
    have := (state.v.get 0).toNat_lt
    change ((state.v.get 0).toUInt16 + target.toWord).toNat ≤ 0x10FE
    rw [UInt16.toNat_add, UInt8.toNat_toUInt16, Address.toNat_toWord]
    omega
  | awaitKey x =>
    change (state.pc + 2 - 2).toNat ≤ 0x10FE
    rw [UInt16.add_sub_cancel]
    omega
  | combine operation x y =>
    rw [State.combine_pc, State.advanced_pc, hnext]
    omega
  | _ =>
    change (state.pc + 2).toNat ≤ 0x10FE
    omega

/-- An instruction opens calls only to return to its successor. -/
theorem Leads.mem_stack (hleads : instruction.Leads state input after) {address : UInt16}
    (hmem : address ∈ after.stack.toList) :
    address ∈ state.stack.toList ∨ address = state.pc := by
  cases hleads with
  | @ret pc stack hpop =>
    left
    rw [CallStack.toList_pop? hpop]
    exact List.mem_append_left _ hmem
  | @call target stack hpush =>
    change address ∈ stack.toList at hmem
    rw [CallStack.toList_push hpush, List.mem_append, List.mem_singleton] at hmem
    exact hmem
  | combine operation x y =>
    rw [State.combine_stack] at hmem
    exact .inl hmem
  | _ => exact .inl hmem

/-- Only the instruction that asks for a key begins a wait; it winds the counter back. -/
theorem Leads.awaiting_eq_some (hleads : instruction.Leads state input after)
    (hwait : state.awaiting = none) {x : Register} (hafter : after.awaiting = some x) :
    instruction = .awaitKey x ∧
      after = { state with pc := state.pc - 2, awaiting := some x } := by
  cases hleads with
  | awaitKey y =>
    cases hafter
    exact ⟨rfl, rfl⟩
  | combine operation y z =>
    rw [State.combine_awaiting, hwait] at hafter
    cases hafter
  | _ =>
    change state.awaiting = some x at hafter
    rw [hwait] at hafter
    cases hafter

/-- The word of the instruction that waits for a key. -/
theorem word_of_decode_eq_awaitKey {word : UInt16} {x : Register}
    (h : decode ⟨word⟩ = .awaitKey x) : word = UInt16.ofNat (0xF00A + 256 * x.val) := by
  have hrow := decodes ⟨word⟩
  rw [h] at hrow
  cases hrow with
  | awaitKey hfamily hkk =>
    have hx := (Opcode.x ⟨word⟩).isLt
    obtain ⟨hy, hn⟩ := Opcode.digits_of_kk hkk
    refine (Opcode.word_eq_iff ⟨word⟩).mpr ?_
    rw [hfamily, hy, hn, UInt16.toNat_ofNat']
    change 4096 * 15 + 256 * _ + 16 * 0 + 10 = _ % 65536
    omega

end Instruction

namespace Machine

/-! ## The invariant -/

/-- The bounds that every operation keeps. -/
structure Sound (machine : Machine) : Prop where
  /-- The program counter is at most the farthest computed jump. -/
  pc_le : machine.state.pc.toNat ≤ 0x10FE
  /-- No more calls are open than there are slots. -/
  depth_le : machine.state.stack.depth ≤ 16
  /-- A return address points behind an instruction in memory. -/
  returns : ∀ address ∈ machine.state.stack.toList, 2 ≤ address.toNat ∧ address.toNat ≤ 0x1000
  /-- A machine that awaits a key runs, and stands on the instruction that asked for the key. -/
  waiting : ∀ x, machine.state.awaiting = some x →
    x.val ≤ 15 ∧ machine.halted = none ∧ machine.state.pc.toNat ≤ 0xFFE ∧
      machine.state.memory.word machine.state.pc = .ok (UInt16.ofNat (0xF00A + 256 * x.val))

/-- A freshly loaded machine is sound. -/
theorem sound_ofImage (image : List UInt8) : (ofImage image).Sound where
  pc_le := show (0x200 : UInt16).toNat ≤ 0x10FE by decide
  depth_le := Nat.zero_le 16
  returns := by
    intro address hmem
    exact absurd hmem List.not_mem_nil
  waiting := by
    intro x hx
    cases hx

/-- The end of a wait moves the program counter past the instruction in memory that asked for
the key, and nothing else that soundness speaks of. -/
theorem Sound.poll {machine : Machine} (hsound : machine.Sound) {x : Register}
    (hwait : machine.state.awaiting = some x) (keyboard : Keyboard) :
    Sound { machine with state := machine.state.poll x keyboard } := by
  obtain ⟨-, -, hpc, -⟩ := hsound.waiting x hwait
  unfold State.poll
  split
  · exact hsound
  · refine ⟨?_, hsound.depth_le, hsound.returns, fun y hy => by cases hy⟩
    change (machine.state.pc + 2).toNat ≤ 0x10FE
    rw [Instruction.toNat_add_two (by omega)]
    omega

/-- An executed instruction keeps the bounds. -/
theorem Sound.executed {machine : Machine} (hsound : machine.Sound) {input : Input}
    {word : UInt16} {after : State} (hrun : machine.halted = none)
    (hwait : machine.state.awaiting = none)
    (hfetch : machine.state.memory.word machine.state.pc = .ok word)
    (hleads : (Instruction.decode ⟨word⟩).Leads machine.state.advanced input after) :
    Sound { machine with state := after.tick } := by
  have hpc : machine.state.pc.toNat + 1 < 4096 := Memory.lt_of_word_eq_ok hfetch
  have hnext := Instruction.toNat_add_two hpc
  refine ⟨?_, after.stack.depth_le, ?_, ?_⟩
  · exact hleads.pc_le hpc fun address hmem => (hsound.returns address hmem).2
  · intro address hmem
    rcases hleads.mem_stack hmem with hold | rfl
    · exact hsound.returns address hold
    · rw [State.advanced_pc, hnext]
      omega
  · intro x hx
    obtain ⟨hdecode, rfl⟩ := hleads.awaiting_eq_some hwait hx
    have hback : machine.state.pc + 2 - 2 = machine.state.pc := UInt16.add_sub_cancel _ _
    have hx15 : x.val < 16 := x.isLt
    refine ⟨by omega, hrun, ?_, ?_⟩
    · change (machine.state.pc + 2 - 2).toNat ≤ 0xFFE
      rw [hback]
      omega
    · change machine.state.memory.word (machine.state.pc + 2 - 2) = _
      rw [hback, hfetch, Instruction.word_of_decode_eq_awaitKey hdecode]

/-- A step keeps the bounds. -/
theorem Sound.step {machine : Machine} (hsound : machine.Sound) (input : Input) :
    (machine.step input).2.Sound := by
  have htransition := machine.transition input
  generalize machine.executed? input = executed, machine.step input = result at htransition ⊢
  cases htransition with
  | halted hhalted => exact hsound
  | polled hrun hwait => exact hsound.poll hwait input.keyboard
  | executed hrun hwait hfetch hleads => exact hsound.executed hrun hwait hfetch hleads
  | failed hrun hwait hfails =>
    refine ⟨hsound.pc_le, hsound.depth_le, hsound.returns, ?_⟩
    intro x hx
    rw [hwait] at hx
    cases hx

/-- Taking a frame keeps the bounds. -/
theorem Sound.takeFrame {machine : Machine} (hsound : machine.Sound) :
    machine.takeFrame.2.Sound := by
  rw [takeFrame_snd]
  exact ⟨hsound.pc_le, hsound.depth_le, hsound.returns, hsound.waiting⟩

/-- **Every reachable machine is sound.** -/
theorem Reachable.sound {machine : Machine} (hreach : machine.Reachable) : machine.Sound := by
  induction hreach with
  | load hload =>
    obtain ⟨-, -, rfl⟩ := load_eq_ok_iff.mp hload
    exact sound_ofImage _
  | act _ action ih =>
    cases action with
    | step input => exact ih.step input
    | takeFrame => exact ih.takeFrame

end Machine

end Chip8
