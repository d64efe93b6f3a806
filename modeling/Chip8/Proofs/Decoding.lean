import Chip8.Instruction
import Mathlib.Tactic.SplitIfs

/-!
# From an instruction back to its opcode

* `Decodes op instruction`: the rows of the opcode table, one for each form of instruction, with
  what the row demands of the opcode's digits.
* `decodes`: what an opcode decodes to stands in one of these rows.

`decode_eq_ret_iff`, `decode_eq_call_iff` and their like follow: they name the opcodes of the
instructions that statements about whole runs count or single out.
-/

namespace Chip8

namespace Opcode

/-! ## Digits -/

/-- The four digits make up the word. -/
theorem word_eq_iff (op : Opcode) {word : UInt16} :
    op.word = word ↔
      4096 * op.family.val + 256 * op.x.val + 16 * op.y.val + op.n.val = word.toNat := by
  have hword := op.word.toNat_lt
  rw [← UInt16.toNat_inj, family, x, y, n]
  dsimp only
  omega

/-- The last two digits make up the byte. -/
theorem toNat_kk (op : Opcode) : op.kk.toNat = 16 * op.y.val + op.n.val := by
  have hkk : op.kk.toNat = op.word.toNat % 0x100 :=
    UInt8.toNat_ofNat_of_lt (Nat.mod_lt _ (by decide))
  rw [hkk, y, n]
  dsimp only
  omega

/-- The last three digits make up the address. -/
theorem val_nnn (op : Opcode) :
    op.nnn.val = 256 * op.x.val + 16 * op.y.val + op.n.val := by
  rw [nnn, x, y, n]
  dsimp only
  omega

/-- The byte gives the last two digits. -/
theorem digits_of_kk {op : Opcode} {byte : UInt8} (hkk : op.kk = byte) :
    op.y.val = byte.toNat / 16 ∧ op.n.val = byte.toNat % 16 := by
  have hn := op.n.isLt
  have hbyte := op.toNat_kk
  rw [hkk] at hbyte
  omega

end Opcode

namespace Instruction

/-! ## The table -/

/-- The rows of the opcode table: the instruction of a row, and what the row demands of the
opcode. `idle` stands for every other opcode, too. -/
inductive Decodes (op : Opcode) : Instruction → Prop
  | idle : Decodes op .idle
  | clear (hword : op.word = 0x00E0) : Decodes op .clear
  | ret (hword : op.word = 0x00EE) : Decodes op .ret
  | jump (hfamily : op.family = 0x1) : Decodes op (.jump op.nnn)
  | call (hfamily : op.family = 0x2) : Decodes op (.call op.nnn)
  | skipIsByte (hfamily : op.family = 0x3) : Decodes op (.skip (.isByte op.x op.kk))
  | skipIsNotByte (hfamily : op.family = 0x4) : Decodes op (.skip (.isNotByte op.x op.kk))
  | skipEqual (hfamily : op.family = 0x5) (hn : op.n = 0) :
      Decodes op (.skip (.equal op.x op.y))
  | load (hfamily : op.family = 0x6) : Decodes op (.load op.x op.kk)
  | increase (hfamily : op.family = 0x7) : Decodes op (.increase op.x op.kk)
  | combine {operation : Arithmetic} (hfamily : op.family = 0x8)
      (hn : Arithmetic.ofDigit? op.n = some operation) :
      Decodes op (.combine operation op.x op.y)
  | skipDifferent (hfamily : op.family = 0x9) (hn : op.n = 0) :
      Decodes op (.skip (.different op.x op.y))
  | point (hfamily : op.family = 0xA) : Decodes op (.point op.nnn)
  | jumpFrom (hfamily : op.family = 0xB) : Decodes op (.jumpFrom op.nnn)
  | random (hfamily : op.family = 0xC) : Decodes op (.random op.x op.kk)
  | draw (hfamily : op.family = 0xD) : Decodes op (.draw op.x op.y op.n)
  | skipKeyDown (hfamily : op.family = 0xE) (hkk : op.kk = 0x9E) :
      Decodes op (.skip (.keyDown op.x))
  | skipKeyUp (hfamily : op.family = 0xE) (hkk : op.kk = 0xA1) : Decodes op (.skip (.keyUp op.x))
  | readDelay (hfamily : op.family = 0xF) (hkk : op.kk = 0x07) : Decodes op (.readDelay op.x)
  | awaitKey (hfamily : op.family = 0xF) (hkk : op.kk = 0x0A) : Decodes op (.awaitKey op.x)
  | setDelay (hfamily : op.family = 0xF) (hkk : op.kk = 0x15) : Decodes op (.setDelay op.x)
  | setSound (hfamily : op.family = 0xF) (hkk : op.kk = 0x18) : Decodes op (.setSound op.x)
  | advance (hfamily : op.family = 0xF) (hkk : op.kk = 0x1E) : Decodes op (.advance op.x)
  | pointGlyph (hfamily : op.family = 0xF) (hkk : op.kk = 0x29) : Decodes op (.pointGlyph op.x)
  | storeDecimal (hfamily : op.family = 0xF) (hkk : op.kk = 0x33) :
      Decodes op (.storeDecimal op.x)
  | save (hfamily : op.family = 0xF) (hkk : op.kk = 0x55) : Decodes op (.save op.x)
  | restore (hfamily : op.family = 0xF) (hkk : op.kk = 0x65) : Decodes op (.restore op.x)

/-- The rows of family E. -/
theorem decodes_keys {op : Opcode} (hfamily : op.family = 0xE) : Decodes op (decodeKeys op) := by
  unfold decodeKeys
  split
  · next hkk => exact .skipKeyDown hfamily (UInt8.toNat_inj.mp hkk)
  · next hkk => exact .skipKeyUp hfamily (UInt8.toNat_inj.mp hkk)
  · exact .idle

/-- The rows of family F. -/
theorem decodes_single {op : Opcode} (hfamily : op.family = 0xF) :
    Decodes op (decodeSingle op) := by
  unfold decodeSingle
  split
  · next hkk => exact .readDelay hfamily (UInt8.toNat_inj.mp hkk)
  · next hkk => exact .awaitKey hfamily (UInt8.toNat_inj.mp hkk)
  · next hkk => exact .setDelay hfamily (UInt8.toNat_inj.mp hkk)
  · next hkk => exact .setSound hfamily (UInt8.toNat_inj.mp hkk)
  · next hkk => exact .advance hfamily (UInt8.toNat_inj.mp hkk)
  · next hkk => exact .pointGlyph hfamily (UInt8.toNat_inj.mp hkk)
  · next hkk => exact .storeDecimal hfamily (UInt8.toNat_inj.mp hkk)
  · next hkk => exact .save hfamily (UInt8.toNat_inj.mp hkk)
  · next hkk => exact .restore hfamily (UInt8.toNat_inj.mp hkk)
  · exact .idle

/-- **Every opcode decodes by a row of the table**, or to nothing. -/
theorem decodes (op : Opcode) : Decodes op (decode op) := by
  unfold decode
  split
  · split_ifs with hclear hret
    · exact .clear hclear
    · exact .ret hret
    · exact .idle
  · next hfamily => exact .jump (Fin.ext hfamily)
  · next hfamily => exact .call (Fin.ext hfamily)
  · next hfamily => exact .skipIsByte (Fin.ext hfamily)
  · next hfamily => exact .skipIsNotByte (Fin.ext hfamily)
  · next hfamily =>
    split_ifs with hn
    · exact .skipEqual (Fin.ext hfamily) hn
    · exact .idle
  · next hfamily => exact .load (Fin.ext hfamily)
  · next hfamily => exact .increase (Fin.ext hfamily)
  · next hfamily =>
    split
    · next hn => exact .combine (Fin.ext hfamily) hn
    · exact .idle
  · next hfamily =>
    split_ifs with hn
    · exact .skipDifferent (Fin.ext hfamily) hn
    · exact .idle
  · next hfamily => exact .point (Fin.ext hfamily)
  · next hfamily => exact .jumpFrom (Fin.ext hfamily)
  · next hfamily => exact .random (Fin.ext hfamily)
  · next hfamily => exact .draw (Fin.ext hfamily)
  · next hfamily => exact decodes_keys (Fin.ext hfamily)
  · next hfamily => exact decodes_single (Fin.ext hfamily)
  · exact .idle

/-! ## Single rows, read both ways -/

/-- Only `00EE` returns. -/
theorem decode_eq_ret_iff (op : Opcode) : decode op = .ret ↔ op.word = 0x00EE := by
  constructor
  · intro h
    have hrow := decodes op
    rw [h] at hrow
    cases hrow with
    | ret hword => exact hword
  · obtain ⟨word⟩ := op
    rintro rfl
    decide

/-- Only `00E0` clears the screen. -/
theorem decode_eq_clear_iff (op : Opcode) : decode op = .clear ↔ op.word = 0x00E0 := by
  constructor
  · intro h
    have hrow := decodes op
    rw [h] at hrow
    cases hrow with
    | clear hword => exact hword
  · obtain ⟨word⟩ := op
    rintro rfl
    decide

/-- Exactly the opcodes `2nnn` call. -/
theorem decode_eq_call_iff (op : Opcode) (target : Address) :
    decode op = .call target ↔ op.family = 0x2 ∧ op.nnn = target := by
  constructor
  · intro h
    have hrow := decodes op
    rw [h] at hrow
    cases hrow with
    | call hfamily => exact ⟨hfamily, rfl⟩
  · rintro ⟨hfamily, rfl⟩
    unfold decode
    rw [hfamily]
    rfl

/-! ## Single families -/

/-- Family D draws. -/
theorem decode_of_family_D {op : Opcode} (hfamily : op.family = 0xD) :
    decode op = .draw op.x op.y op.n := by
  unfold decode
  rw [hfamily]
  rfl

/-- Family F is told apart by its last two digits. -/
theorem decode_of_family_F {op : Opcode} (hfamily : op.family = 0xF) :
    decode op = decodeSingle op := by
  unfold decode
  rw [hfamily]
  rfl

end Instruction

end Chip8
