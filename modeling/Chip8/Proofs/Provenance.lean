import Chip8.Proofs.Decoding
import Chip8.Proofs.Runs
import Mathlib.Data.List.GetD

/-!
# Where the bytes in memory come from

Two instructions store to memory: one the decimal digits of a register, the other V0 up to a
register.

* `Executed.Covers`, `Executed.put`: whether an instruction stores to an address, and what.
* `Executed.leave`: the byte at an address after an instruction, from the byte before it.
* `memory_step`, `memory_run`: a step, and so a run, does to a byte in memory what the instructions
  that it executes do to it one after the other.
* `foldl_leave_of_covered`, `foldl_leave_of_not_covered`: which is what the last one that covers the
  address puts there, or nothing.
* `Machine.loadedByte`: the byte at an address before anything is stored there.
* `memory_holds_what_was_stored_last`: the three together, and that a glyph is found whole as long
  as nothing was stored over the font.
-/

namespace Chip8

namespace Memory

/-- After a write a byte is the datum that landed on it, or what it was. -/
theorem get_of_write_eq_ok {memory after : Memory} {start : UInt16} {data : List UInt8}
    (hwrite : memory.write start data = .ok after) (address : Address) :
    after.bytes.get address =
      if start.toNat ≤ address.val then
        data.getD (address.val - start.toNat) (memory.bytes.get address)
      else memory.bytes.get address := by
  by_cases hfits : start.toNat + data.length ≤ 4096
  · rw [write_of_le memory hfits] at hwrite
    cases hwrite
    exact Block.getElem_overwrite_eq_getD _ _ _ address.isLt
  · rw [write_of_lt memory (by omega)] at hwrite
    cases hwrite

end Memory

/-! ## Single instructions -/

namespace Executed

/-- Whether an instruction stores to an address: it is the one that stores three decimal digits from
the index register on, or the one that stores V0 to Vx there. -/
def Covers (executed : Executed) (address : Nat) : Prop :=
  executed.op.family = 0xF ∧ executed.before.i.toNat ≤ address ∧
    ((executed.op.kk = 0x33 ∧ address ≤ executed.before.i.toNat + 2) ∨
      (executed.op.kk = 0x55 ∧ address ≤ executed.before.i.toNat + executed.op.x.val))

instance (executed : Executed) (address : Nat) : Decidable (executed.Covers address) :=
  inferInstanceAs (Decidable (_ ∧ _))

/-- What an instruction puts at an address that it covers: the hundreds, the tens or the units of
Vx, or the register as far from V0 as the address is from the index register. -/
def put (executed : Executed) (address : Nat) : UInt8 :=
  let value := executed.before.v.get executed.op.x
  let offset := address - executed.before.i.toNat
  if executed.op.kk = 0x33 then
    if offset = 0 then value / 100 else if offset = 1 then value / 10 % 10 else value % 10
  else executed.before.v.get (Fin.ofNat 16 offset)

/-- The byte at an address after an instruction, from the byte before it. -/
def leave (executed : Executed) (address : Nat) (byte : UInt8) : UInt8 :=
  if executed.Covers address then executed.put address else byte

end Executed

/-- The digits stored, counted from the hundreds. -/
theorem getD_decimalDigits (value : UInt8) (offset : Nat) (byte : UInt8) :
    (decimalDigits value).getD offset byte =
      if offset ≤ 2 then
        if offset = 0 then value / 100 else if offset = 1 then value / 10 % 10 else value % 10
      else byte := by
  match offset with
  | 0 => rfl
  | 1 => rfl
  | 2 => rfl
  | offset + 3 => simp [decimalDigits]

/-- The registers saved, counted from V0. -/
theorem getD_take_registers (registers : Registers) (x : Register) (offset : Nat) (byte : UInt8) :
    (registers.toList.take (x.val + 1)).getD offset byte =
      if offset ≤ x.val then registers.get (Fin.ofNat 16 offset) else byte := by
  have hx : x.val < 16 := x.isLt
  rw [List.getD_eq_getElem?_getD, List.getElem?_take]
  by_cases hsaved : offset ≤ x.val
  · have hregister : offset % 16 = offset := Nat.mod_eq_of_lt (by omega)
    rw [if_pos (by omega), if_pos hsaved, List.getElem?_eq_getElem (by simp; omega)]
    simp [Registers.get, hregister]
  · rw [if_neg (by omega), if_neg hsaved]
    rfl

/-- An instruction that covers an address is one of the two that store. -/
theorem Executed.decode_of_covers {executed : Executed} {address : Nat}
    (hcovers : executed.Covers address) :
    Instruction.decode executed.op = .storeDecimal executed.op.x ∨
      Instruction.decode executed.op = .save executed.op.x := by
  obtain ⟨hfamily, -, hkk⟩ := hcovers
  rw [Instruction.decode_of_family_F hfamily, Instruction.decodeSingle]
  rcases hkk with ⟨hkk, -⟩ | ⟨hkk, -⟩
  · rw [hkk]
    exact .inl rfl
  · rw [hkk]
    exact .inr rfl

/-- **An instruction does to a byte in memory what is said of it.** -/
theorem Instruction.Leads.get_memory {state after : State} {input : Input} {op : Opcode}
    (hleads : (decode op).Leads state.advanced input after) (address : Address) :
    after.memory.bytes.get address =
      Executed.leave { before := state, op } address.val (state.memory.bytes.get address) := by
  have hrow := decodes op
  have hidle (byte : UInt8) (hdecimal : decode op ≠ .storeDecimal op.x)
      (hsave : decode op ≠ .save op.x) :
      Executed.leave { before := state, op } address.val byte = byte :=
    if_neg fun hcovers => (Executed.decode_of_covers hcovers).elim hdecimal hsave
  generalize decode op = instruction at hleads hrow hidle
  -- `Leads` knows the instruction only; its row in the table has the digits of the opcode.
  cases hleads with
  | storeDecimal x hwrite =>
    cases hrow with
    | storeDecimal hfamily hkk =>
      rw [Memory.get_of_write_eq_ok hwrite, getD_decimalDigits]
      simp only [Executed.leave, Executed.Covers, Executed.put, hfamily, hkk, State.advanced]
      grind
  | save x hwrite =>
    cases hrow with
    | save hfamily hkk =>
      rw [Memory.get_of_write_eq_ok hwrite, getD_take_registers]
      simp only [Executed.leave, Executed.Covers, Executed.put, hfamily, hkk, State.advanced]
      grind
  | combine operation x y =>
    rw [hidle _ (by simp) (by simp), State.combine_eq]
    rfl
  | _ => exact (hidle _ (by simp) (by simp)).symm

/-! ## Runs -/

namespace Executed

variable {history : List Executed} {address : Nat}

/-- Instructions that do not cover an address leave the byte there alone. -/
theorem foldl_leave_of_not_covered (hnone : ∀ executed ∈ history, ¬executed.Covers address)
    (byte : UInt8) : history.foldl (fun byte executed => executed.leave address byte) byte = byte := by
  induction history generalizing byte with
  | nil => rfl
  | cons executed rest ih =>
    rw [List.foldl_cons, leave, if_neg (hnone executed List.mem_cons_self)]
    exact ih (fun other hmem => hnone other (List.mem_cons_of_mem _ hmem)) byte

/-- When some instruction covers an address, there is a last one that does, and it leaves the byte
there for good. -/
theorem foldl_leave_of_covered (hcovered : ∃ executed ∈ history, executed.Covers address)
    (byte : UInt8) :
    ∃ earlier executed later, history = earlier ++ executed :: later ∧
      executed.Covers address ∧ (∀ other ∈ later, ¬other.Covers address) ∧
      history.foldl (fun byte executed => executed.leave address byte) byte =
        executed.put address := by
  induction history generalizing byte with
  | nil => simp at hcovered
  | cons executed rest ih =>
    rw [List.foldl_cons]
    -- The last one lies among the others, unless none of them covers the address.
    by_cases hrest : ∃ other ∈ rest, other.Covers address
    · obtain ⟨earlier, last, later, rfl, hlast, hnone, hbyte⟩ :=
        ih hrest (executed.leave address byte)
      exact ⟨executed :: earlier, last, later, rfl, hlast, hnone, hbyte⟩
    · have hnone : ∀ other ∈ rest, ¬other.Covers address := by
        intro other hmem hother
        exact hrest ⟨other, hmem, hother⟩
      have hfirst : executed.Covers address := by
        obtain ⟨other, hmem, hother⟩ := hcovered
        rcases List.mem_cons.mp hmem with rfl | hmem
        · exact hother
        · exact absurd hother (hnone other hmem)
      refine ⟨[], executed, rest, rfl, hfirst, hnone, ?_⟩
      rw [foldl_leave_of_not_covered hnone, leave, if_pos hfirst]

end Executed

namespace Machine

/-- A step does to a byte in memory what the instruction does that it executes, if it executes
one. -/
theorem memory_step (machine : Machine) (input : Input) (address : Address) :
    (machine.step input).2.state.memory.bytes.get address =
      (machine.executed? input).toList.foldl
        (fun byte executed => executed.leave address.val byte)
        (machine.state.memory.bytes.get address) := by
  have htransition := machine.transition input
  generalize machine.executed? input = executed, machine.step input = result at htransition ⊢
  cases htransition with
  | halted hhalted => rfl
  | @polled x hrun hwait =>
    show (machine.state.poll x input.keyboard).memory.bytes.get address = _
    unfold State.poll
    split
    · rfl
    · rfl
  | executed hrun hwait hfetch hleads => exact hleads.get_memory address
  | failed hrun hwait hfails => rfl

/-- **A run does to a byte in memory what its instructions do**, one after the other. -/
theorem memory_run (machine : Machine) (actions : List Action) (address : Address) :
    (machine.run actions).state.memory.bytes.get address =
      (machine.history actions).foldl (fun byte executed => executed.leave address.val byte)
        (machine.state.memory.bytes.get address) := by
  induction actions generalizing machine with
  | nil => rfl
  | cons action rest ih =>
    cases action with
    | takeFrame =>
      have hmemory : machine.takeFrame.2.state.memory = machine.state.memory := by
        rw [takeFrame_snd]
      rw [← hmemory]
      exact ih _
    | step input =>
      rw [history, List.foldl_append, ← memory_step]
      exact ih _

/-! ## The start of a run -/

/-- The byte at an address before anything is stored there: a byte of the program, a byte of the
font, or zero. -/
def loadedByte (image : List UInt8) (address : Nat) : UInt8 :=
  if 0x200 ≤ address ∧ address < 0x200 + image.length then image.getD (address - 0x200) 0
  else if 0x50 ≤ address ∧ address < 0xA0 then Font.sheet.getD (address - 0x50) 0
  else 0

/-- A loaded machine has these bytes in its memory. -/
theorem memory_ofImage (image : List UInt8) (address : Address) :
    (ofImage image).state.memory.bytes.get address = loadedByte image address.val := by
  have hfont : Font.sheet.length = 80 := Font.length_sheet
  have hbyte := Block.getElem_overwrite_eq_getD Memory.initial.bytes 0x200 image address.isLt
  rw [Memory.getElem_initial address.isLt] at hbyte
  refine hbyte.trans ?_
  unfold loadedByte
  by_cases hprogram : 0x200 ≤ address.val ∧ address.val < 0x200 + image.length
  · rw [if_pos hprogram, if_pos hprogram.1, List.getD_eq_getElem image _ (by omega),
      List.getD_eq_getElem image _ (by omega)]
  · rw [if_neg hprogram]
    by_cases hbehind : 0x200 ≤ address.val
    · rw [if_pos hbehind, List.getD_eq_default image _ (by omega), if_pos (by omega),
        List.getD_eq_default Font.sheet _ (by omega), if_neg (by omega)]
    · rw [if_neg hbehind]
      by_cases hsheet : 0x50 ≤ address.val ∧ address.val < 0xA0
      · rw [if_pos hsheet, if_pos hsheet.1]
      · rw [if_neg hsheet]
        by_cases hlow : 0x50 ≤ address.val
        · rw [if_pos hlow, List.getD_eq_default Font.sheet _ (by omega)]
        · rw [if_neg hlow]

/-- The glyph of a digit is found where the index register is pointed for it, as long as the font is
as it was loaded. -/
theorem read_glyph {image : List UInt8} {memory : Memory}
    (hfont : ∀ address : Address, 0x50 ≤ address.val → address.val ≤ 0x9F →
      memory.bytes.get address = loadedByte image address.val)
    {value : UInt8} {digit : Fin 16} (hvalue : value.toNat = digit.val) :
    memory.read (Font.address value) 5 = .ok (Font.glyph digit) := by
  have hsheet : ∀ digit : Fin 16,
      Font.glyph digit = List.ofFn fun k : Fin 5 => Font.sheet.getD (5 * digit.val + k.val) 0 := by
    decide
  have hdigit : digit.val < 16 := digit.isLt
  have hstart : (Font.address value).toNat = 0x50 + 5 * digit.val := by
    rw [Font.address, hvalue]
    exact UInt16.toNat_ofNat_of_lt' (show 0x50 + 5 * digit.val < 65536 by omega)
  rw [Memory.read_of_le memory (by omega), hsheet]
  refine congrArg (Except.ok ∘ List.ofFn) (funext fun k => ?_)
  have hk : k.val < 5 := k.isLt
  have hplace : 0x50 + 5 * digit.val + k.val - 0x50 = 5 * digit.val + k.val := by omega
  have hbyte : memory.bytes[0x50 + 5 * digit.val + k.val] =
      loadedByte image (0x50 + 5 * digit.val + k.val) :=
    hfont ⟨0x50 + 5 * digit.val + k.val, by omega⟩ (Nat.le_add_right_of_le (by omega))
      (show 0x50 + 5 * digit.val + k.val ≤ 0x9F by omega)
  rw [loadedByte, if_neg (by omega), if_pos (by omega), hplace] at hbyte
  simp only [hstart]
  exact hbyte

/-- **Memory holds what was stored last.** After any run of a loaded program, a byte in memory is
what the last instruction that covered its address put there; if none did, it is the byte of the
program at that place, or of the font, or zero. And as long as no instruction covered a place of the
font, an instruction that points the index register at the glyph of a digit leads to a state in
which the five bytes there are this glyph. -/
theorem memory_holds_what_was_stored_last {image : List UInt8} {start : Machine}
    (hload : load image = .ok start) (actions : List Action) :
    let machine := start.run actions
    let history := start.history actions
    (∀ address : Address,
      ((∃ executed ∈ history, executed.Covers address.val) →
        ∃ earlier executed later, history = earlier ++ executed :: later ∧
          executed.Covers address.val ∧ (∀ other ∈ later, ¬other.Covers address.val) ∧
          machine.state.memory.bytes.get address = executed.put address.val) ∧
      ((∀ executed ∈ history, ¬executed.Covers address.val) →
        machine.state.memory.bytes.get address = loadedByte image address.val)) ∧
      ((∀ executed ∈ history, ∀ address, 0x50 ≤ address → address ≤ 0x9F →
          ¬executed.Covers address) →
        ∀ input executed, machine.executed? input = some executed →
          executed.op.family = 0xF → executed.op.kk = 0x29 →
          ∀ digit : Fin 16, (machine.state.v.get executed.op.x).toNat = digit.val →
            let after := (machine.step input).2.state
            after.memory.read after.i 5 = .ok (Font.glyph digit)) := by
  intro machine history
  obtain ⟨-, -, rfl⟩ := load_eq_ok_iff.mp hload
  have hbyte (address : Address) : machine.state.memory.bytes.get address =
      history.foldl (fun byte executed => executed.leave address.val byte)
        (loadedByte image address.val) := by
    rw [← memory_ofImage]
    exact memory_run _ _ _
  have hloaded (address : Address) (hnone : ∀ executed ∈ history, ¬executed.Covers address.val) :
      machine.state.memory.bytes.get address = loadedByte image address.val := by
    rw [hbyte, Executed.foldl_leave_of_not_covered hnone]
  refine ⟨?_, ?_⟩
  · intro address
    refine ⟨?_, hloaded address⟩
    intro hcovered
    rw [hbyte]
    exact Executed.foldl_leave_of_covered hcovered _
  · intro hfont input executed hexecuted hfamily hkk digit hdigit
    show (machine.step input).2.state.memory.read (machine.step input).2.state.i 5 = _
    have htransition := machine.transition input
    rw [hexecuted] at htransition
    have hfont' : ∀ address : Address, 0x50 ≤ address.val → address.val ≤ 0x9F →
        machine.state.memory.bytes.get address = loadedByte image address.val := by
      intro address hlow hhigh
      exact hloaded address fun executed hmem => hfont executed hmem address.val hlow hhigh
    have hdecode : Instruction.decode executed.op = .pointGlyph executed.op.x := by
      rw [Instruction.decode_of_family_F hfamily, Instruction.decodeSingle, hkk]
      rfl
    generalize machine.step input = result at htransition ⊢
    cases htransition with
    | executed hrun hwait hfetch hleads =>
      rw [hdecode] at hleads
      cases hleads
      exact read_glyph hfont' hdigit

/-- A program that stores the digits of 255 from `300` on, stores V0 over the second of them, loads
the digit A and points the index register at its glyph. -/
theorem memory_holds_what_was_stored_last_overlapping :
    let image : List UInt8 :=
      [0x60, 0xFF, 0xA3, 0x00, 0xF0, 0x33, 0xA3, 0x01, 0xF0, 0x55, 0x60, 0x0A, 0xF0, 0x29]
    let start := ofImage image
    let idle : Input := { keyboard := Keypad.empty.keyboard }
    let stores : List Action := List.replicate 6 (.step idle)
    let after := ((start.run stores).step idle).2.state
    load image = .ok start ∧
      (∃ executed ∈ start.history stores, executed.Covers 0x301 ∧
        (start.run stores).state.memory.bytes.get 0x301 = executed.put 0x301) ∧
      (start.run stores).state.memory.bytes.get 0x303 = 0 ∧
      after.memory.read after.i 5 = .ok [0xF0, 0x90, 0xF0, 0x90, 0x90] := by
  intro image start idle stores after
  have hload : load image = .ok start := load_eq_ok_iff.mpr ⟨by decide, by decide, rfl⟩
  have hevaluated : (∃ executed ∈ start.history stores, executed.Covers 0x301) ∧
      (∀ executed ∈ start.history stores, ¬executed.Covers 0x303) ∧
      (∀ executed ∈ start.history stores, executed.op.kk = 0x33 ∨ executed.op.kk = 0x55 →
        0x9F < executed.before.i.toNat) ∧
      (∃ executed ∈ (start.run stores).executed? idle, executed.op.family = 0xF ∧
        executed.op.kk = 0x29 ∧ ((start.run stores).state.v.get executed.op.x).toNat = 0xA) := by
    decide +kernel
  obtain ⟨hcovered, hnone, hbehind, last, hlast, hfamily, hkk, hdigit⟩ := hevaluated
  obtain ⟨hstored, hglyph⟩ := memory_holds_what_was_stored_last hload stores
  refine ⟨hload, ?_, ?_, ?_⟩
  · obtain ⟨earlier, executed, later, hhistory, hcovers, -, hbyte⟩ := (hstored 0x301).1 hcovered
    refine ⟨executed, ?_, hcovers, hbyte⟩
    rw [hhistory]
    simp
  · have hzero : loadedByte image 0x303 = 0 := by decide
    rw [← hzero]
    exact (hstored 0x303).2 hnone
  · refine hglyph ?_ idle last (Option.mem_def.mp hlast) hfamily hkk 0xA hdigit
    rintro executed hmem address - hhigh ⟨-, hlow, hstores⟩
    have := hbehind executed hmem (hstores.imp And.left And.left)
    omega

end Machine

end Chip8
