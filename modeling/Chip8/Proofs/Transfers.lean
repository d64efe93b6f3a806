import Chip8.Proofs.Provenance

/-!
# Registers in memory and back

Two instructions copy V0 to Vx: one to memory from the index register on, the other from there.

* `Opcode.saving`, `Opcode.restoring`: their opcodes, `Fx55` and `Fx65`.
* `Registers.LieIn`: the bytes of memory from a place on are V0 to Vx.
* `LieIn.get_eq`, `LieIn.byte_eq`: that the bytes there and the registers determine each other.
* `execute_save`, `execute_restore`: that either instruction brings this about, one in memory and one
  in the registers, and what it leaves alone.
* `execute_of_over`, `Machine.step_of_over`: that both fail as a whole when one of the bytes is not in
  memory, and that the machine then halts in the state it was in.
* `saved_registers_are_restored`: that each undoes the other, for any part of the registers and
  whatever else has changed in between.
-/

namespace Chip8

/-- The opcode `Fx55`. -/
def Opcode.saving (x : Register) : Opcode where
  word := UInt16.ofNat (0xF055 + 256 * x.val)

/-- The opcode `Fx65`. -/
def Opcode.restoring (x : Register) : Opcode where
  word := UInt16.ofNat (0xF065 + 256 * x.val)

/-- The bytes of memory from `start` on are V0 to Vx. -/
def Registers.LieIn (registers : Registers) (memory : Memory) (start : Nat) (x : Register) : Prop :=
  ∀ z ≤ x, ∀ address : Address, address.val = start + z.val →
    memory.bytes.get address = registers.get z

/-- Memories with the same bytes are the same. -/
theorem Memory.ext_get {left right : Memory}
    (h : ∀ address : Address, left.bytes.get address = right.bytes.get address) : left = right := by
  obtain ⟨left⟩ := left
  obtain ⟨right⟩ := right
  congr 1
  apply Vector.ext
  intro address haddress
  exact h ⟨address, haddress⟩

namespace Registers

/-! ## What lies in memory -/

variable {registers : Registers} {memory : Memory} {start : Nat} {x : Register}

/-- V0 to Vx lie in memory only if V0 to any register before Vx do. -/
theorem LieIn.mono (hlie : registers.LieIn memory start x) {y : Register} (hy : y ≤ x) :
    registers.LieIn memory start y := by
  intro z hz
  exact hlie z (Nat.le_trans hz hy)

/-- They also lie in any other memory that has the same bytes in their places. -/
theorem LieIn.of_same_bytes (hlie : registers.LieIn memory start x) {other : Memory}
    (hsame : ∀ address : Address, start ≤ address.val → address.val ≤ start + x.val →
      other.bytes.get address = memory.bytes.get address) :
    registers.LieIn other start x := by
  intro z hz address haddress
  have hplace : z.val ≤ x.val := hz
  rw [hsame address (by omega) (by omega)]
  exact hlie z hz address haddress

/-- What lies in memory determines the registers. -/
theorem LieIn.get_eq (hlie : registers.LieIn memory start x) {other : Registers}
    (hother : other.LieIn memory start x) (hin : start + x.val ≤ 0xFFF) {z : Register}
    (hz : z ≤ x) : other.get z = registers.get z := by
  have haddress : start + z.val < 4096 := by
    have hplace : z.val ≤ x.val := hz
    omega
  exact (hother z hz ⟨_, haddress⟩ rfl).symm.trans (hlie z hz ⟨_, haddress⟩ rfl)

/-- The registers determine what lies in memory. -/
theorem LieIn.byte_eq (hlie : registers.LieIn memory start x) {other : Memory}
    (hother : registers.LieIn other start x) {address : Address} (hfirst : start ≤ address.val)
    (hlast : address.val ≤ start + x.val) :
    other.bytes.get address = memory.bytes.get address := by
  have hz : address.val - start ≤ x.val := by omega
  let z : Register := ⟨address.val - start, Nat.lt_of_le_of_lt hz x.isLt⟩
  have haddress : address.val = start + z.val := by
    show address.val = start + (address.val - start)
    omega
  exact (hother z hz address haddress).trans (hlie z hz address haddress).symm

end Registers

namespace Instruction

/-! ## Decoding -/

theorem decode_saving (x : Register) : decode (.saving x) = .save x := by
  revert x
  decide

theorem decode_restoring (x : Register) : decode (.restoring x) = .restore x := by
  revert x
  decide

/-! ## Copies that stay in memory -/

variable {state : State} {x : Register}

/-- **V0 to Vx lie in memory once they are saved**, and no other byte is changed. -/
theorem execute_save (hin : state.i.toNat + x.val ≤ 0xFFF) (input : Input) :
    ∃ memory, (save x).execute state input = .ok { state with memory } ∧
      state.v.LieIn memory state.i.toNat x ∧
      ∀ address : Address,
        ¬(state.i.toNat ≤ address.val ∧ address.val ≤ state.i.toNat + x.val) →
        memory.bytes.get address = state.memory.bytes.get address := by
  obtain ⟨memory, hwrite⟩ : ∃ memory,
      state.memory.write state.i (state.v.toList.take (x.val + 1)) = .ok memory := by
    have hlength := length_take_registers state.v x
    exact ⟨_, state.memory.write_of_le (by omega)⟩
  have hbyte := Memory.get_of_write_eq_ok hwrite
  simp only [getD_take_registers] at hbyte
  refine ⟨memory, ?_, ?_, ?_⟩
  · rw [execute, State.storeBytes, hwrite]
    rfl
  · intro z hz address haddress
    have hoffset : address.val - state.i.toNat = z.val := by omega
    rw [hbyte, if_pos (by omega), hoffset, if_pos (Fin.le_def.mp hz),
      Fin.ofNat_val_eq_self]
  · intro address hout
    rw [hbyte]
    split_ifs
    · omega
    · rfl
    · rfl

/-- **V0 to Vx are what lies in memory once they are restored**, and the registers above them are as
they were. -/
theorem execute_restore (hin : state.i.toNat + x.val ≤ 0xFFF) (input : Input) :
    ∃ v, (restore x).execute state input = .ok { state with v } ∧
      Registers.LieIn v state.memory state.i.toNat x ∧
      ∀ z, x < z → Registers.get v z = state.v.get z := by
  let data := List.ofFn fun k : Fin (x.val + 1) => state.memory.bytes[state.i.toNat + k.val]
  have hread : state.memory.read state.i (x.val + 1) = .ok data :=
    state.memory.read_of_le (by omega)
  have hlength : data.length = x.val + 1 := List.length_ofFn
  have hbyte (z : Register) := Block.getElem_overwrite_eq_getD state.v 0 data z.isLt
  refine ⟨Block.overwrite state.v 0 data, ?_, ?_, ?_⟩
  · rw [execute, hread]
    rfl
  · intro z hz address haddress
    have hplace : z.val ≤ x.val := hz
    refine Eq.symm ((hbyte z).trans ?_)
    rw [if_pos (Nat.zero_le _), List.getD_eq_getElem _ _ (by omega), List.getElem_ofFn]
    simp only [Nat.sub_zero, ← haddress]
    rfl
  · intro z hz
    have hplace : x.val < z.val := hz
    refine (hbyte z).trans ?_
    rw [if_pos (Nat.zero_le _), List.getD_eq_default _ _ (by omega)]
    rfl

/-! ## Copies that leave memory -/

/-- A copy of which one byte is not in memory fails. -/
theorem execute_of_over (hover : 0xFFF < state.i.toNat + x.val) (input : Input)
    {instruction : Instruction} (hcopy : instruction = .save x ∨ instruction = .restore x) :
    instruction.execute state input = .error (Memory.outOfBounds state.i) := by
  rw [execute_eq_error_iff]
  rcases hcopy with rfl | rfl
  · exact if_pos (by omega)
  · exact if_pos (by omega)

end Instruction

/-- **A copy that leaves memory copies nothing.** The machine halts, and its state is what it was. -/
theorem Machine.step_of_over {machine : Machine} {x : Register} {op : Opcode}
    (hrunning : machine.status = .running)
    (hfetch : machine.state.memory.word machine.state.pc = .ok op.word)
    (hop : op = .saving x ∨ op = .restoring x)
    (hover : 0xFFF < machine.state.i.toNat + x.val) (input : Input) :
    machine.step input =
      (.error (Memory.outOfBounds machine.state.i),
        { machine with halted := some (Memory.outOfBounds machine.state.i) }) := by
  obtain ⟨hrun, hwait⟩ := status_eq_running_iff.mp hrunning
  have hcopy : Instruction.decode op = .save x ∨ Instruction.decode op = .restore x := by
    rcases hop with rfl | rfl
    · exact .inl (Instruction.decode_saving x)
    · exact .inr (Instruction.decode_restoring x)
  apply step_of_error hrun hwait
  have hover' : 0xFFF < machine.state.advanced.i.toNat + x.val := hover
  have hfails := Instruction.execute_of_over hover' input hcopy
  exact State.executeNext_eq_error_iff.mpr
    (.inr ⟨op.word, hfetch, (Instruction.execute_eq_error_iff input).mp hfails⟩)

/-- **Saved registers are restored.** If the places for V0 to Vx from the index register on all lie in
memory, saving them changes no other byte; and restoring V0 to Vy, for any `y` up to `x`, in any
state with the same index register and the same bytes there, puts what was saved into these
registers and changes nothing else. To restore V0 to Vx first and save them then leaves memory as it
was. If one of the places does not lie in memory, either instruction fails and nothing is copied. -/
theorem saved_registers_are_restored (state : State) (x : Register) :
    (state.i.toNat + x.val ≤ 0xFFF →
      (∀ input, ∃ saved, (Instruction.decode (.saving x)).execute state input = .ok saved ∧
        saved = { state with memory := saved.memory } ∧
        (∀ address : Address,
          ¬(state.i.toNat ≤ address.val ∧ address.val ≤ state.i.toNat + x.val) →
          saved.memory.bytes.get address = state.memory.bytes.get address) ∧
        ∀ (other : State) (later : Input) (y : Register), y ≤ x → other.i = state.i →
          (∀ address : Address,
            state.i.toNat ≤ address.val → address.val ≤ state.i.toNat + x.val →
            other.memory.bytes.get address = saved.memory.bytes.get address) →
          ∃ restored, (Instruction.decode (.restoring y)).execute other later = .ok restored ∧
            restored = { other with v := restored.v } ∧
            (∀ z ≤ y, restored.v.get z = state.v.get z) ∧
            ∀ z, y < z → restored.v.get z = other.v.get z) ∧
      ∀ input later, ∃ restored saved,
        (Instruction.decode (.restoring x)).execute state input = .ok restored ∧
        (Instruction.decode (.saving x)).execute restored later = .ok saved ∧
        saved.memory = state.memory) ∧
    (0xFFF < state.i.toNat + x.val →
      ∀ op : Opcode, op = .saving x ∨ op = .restoring x → ∀ input,
        (Instruction.decode op).execute state input = .error (Memory.outOfBounds state.i) ∧
        ∀ machine : Machine, machine.state = state → machine.status = .running →
          state.memory.word state.pc = .ok op.word →
          (machine.step input).1 = .error (Memory.outOfBounds state.i) ∧
          (machine.step input).2.state = state) := by
  refine ⟨?_, ?_⟩
  · intro hin
    refine ⟨?_, ?_⟩
    · intro input
      obtain ⟨memory, hsave, hlie, houtside⟩ := Instruction.execute_save hin input
      rw [Instruction.decode_saving]
      refine ⟨_, hsave, rfl, houtside, ?_⟩
      intro other later y hy hi hsame
      have hin' : other.i.toNat + y.val ≤ 0xFFF := by
        have hplace : y.val ≤ x.val := hy
        rw [hi]
        omega
      obtain ⟨v, hrestore, hback, habove⟩ := Instruction.execute_restore hin' later
      rw [Instruction.decode_restoring]
      refine ⟨_, hrestore, rfl, ?_, habove⟩
      have hthere : state.v.LieIn other.memory other.i.toNat y := by
        rw [hi]
        exact (hlie.of_same_bytes hsame).mono hy
      intro z hz
      exact hthere.get_eq hback hin' hz
    · intro input later
      obtain ⟨v, hrestore, hback, -⟩ := Instruction.execute_restore hin input
      have hin' : ({ state with v } : State).i.toNat + x.val ≤ 0xFFF := hin
      obtain ⟨memory, hsave, hlie, houtside⟩ := Instruction.execute_save hin' later
      rw [Instruction.decode_restoring, Instruction.decode_saving]
      refine ⟨_, _, hrestore, hsave, ?_⟩
      apply Memory.ext_get
      intro address
      by_cases hinside :
          state.i.toNat ≤ address.val ∧ address.val ≤ state.i.toNat + x.val
      · exact hback.byte_eq hlie hinside.1 hinside.2
      · exact houtside address hinside
  · intro hover op hop input
    refine ⟨?_, ?_⟩
    · apply Instruction.execute_of_over hover
      rcases hop with rfl | rfl
      · exact .inl (Instruction.decode_saving x)
      · exact .inr (Instruction.decode_restoring x)
    · rintro machine rfl hrunning hfetch
      rw [Machine.step_of_over hrunning hfetch hop hover]
      exact ⟨rfl, rfl⟩

/-- All registers still fit at 0xFF0, and a part of them comes back into a state that has lost them;
from 0xFF1 on VF has no place left. -/
theorem saved_registers_are_restored_at_the_end :
    let v : Registers := Vector.ofFn fun z => UInt8.ofNat (z.val + 1)
    let state : State := { v, i := 0xFF0 }
    let input : Input := { keyboard := Keypad.empty.keyboard }
    (∃ saved, (Instruction.decode ⟨0xFF55⟩).execute state input = .ok saved ∧
      ∃ restored,
        (Instruction.decode ⟨0xF365⟩).execute { saved with v := Vector.replicate 16 0, delay := 7 }
          input = .ok restored ∧
        restored.v.get 0x3 = 4 ∧ restored.v.get 0x4 = 0 ∧ restored.delay = 7) ∧
    (Instruction.decode ⟨0xFF55⟩).execute { state with i := 0xFF1 } input =
      .error (Memory.outOfBounds 0xFF1) := by
  intro v state input
  refine ⟨?_, ?_⟩
  · obtain ⟨hsave, -⟩ := (saved_registers_are_restored state 0xF).1 (by decide)
    obtain ⟨saved, hsaved, hmemory, -, hback⟩ := hsave input
    have hi : saved.i = state.i := by rw [hmemory]
    obtain ⟨restored, hrestored, hrest, hv, habove⟩ :=
      hback { saved with v := Vector.replicate 16 0, delay := 7 } input 0x3 (by decide) hi
        fun _ _ _ => rfl
    refine ⟨saved, hsaved, restored, hrestored, hv 0x3 (by decide), habove 0x4 (by decide), ?_⟩
    rw [hrest]
  · exact ((saved_registers_are_restored { state with i := 0xFF1 } 0xF).2 (by decide) ⟨0xFF55⟩
      (.inl (by decide)) input).1

end Chip8
