import Chip8.Proofs.Effects
import Chip8.Proofs.Histories
import Mathlib.Data.List.GetD

/-!
# Memory as a bounded map of bytes

* `Memory.Write`, `Memory.attempt`: a write that is asked for, its answer, and the memory after it.
* `Write.Fits`, `Write.covers`, `Write.put`: whether all of a write lies in memory, the places where
  it then puts a byte, and which byte.
* `Memory.written`, `Memory.leftBy`: memory after a history of writes, and the byte that the history
  leaves at a place, said on the writes alone.
* `get_attempt`, `get_written`: a write puts its bytes in their places and changes no other byte, so
  that the last write that covers a place has put the byte there.
* `read?_written`: what is read after a history of writes.
* `byte_eq_ok_iff`, `byte_eq_error_iff_read`, `word_eq_ok_iff`, `word_eq_error_iff_read`: a byte and
  a word are reads of one byte and of two.
* `memory_is_a_bounded_map_of_bytes`: all of this together.
* `long_read_is_not_refused`: a read whose end overflows.

A write that does not fit covers nothing, not even the places of its that lie in memory. A read that
leaves memory is refused with one exception: where the sum of its start and its length does not fit
into 64 bits, the sum overflows before it is compared with the end of memory.
-/

namespace Chip8.Memory

/-- A write that memory is asked for. -/
structure Write where
  /-- Where the write begins. -/
  start : UInt16
  /-- The bytes to be put there, one after the other. -/
  data : List UInt8

namespace Write

/-- All of a write lies in memory. -/
def Fits (write : Write) : Prop :=
  write.start.toNat + write.data.length ≤ 4096

instance (write : Write) : Decidable write.Fits :=
  inferInstanceAs (Decidable (_ ≤ _))

/-- Whether a write fits and puts a byte at a place. -/
def covers (place : Nat) (write : Write) : Bool :=
  decide (write.Fits ∧ write.start.toNat ≤ place ∧ place < write.start.toNat + write.data.length)

theorem covers_iff {write : Write} {place : Nat} :
    write.covers place = true ↔
      write.Fits ∧ write.start.toNat ≤ place ∧ place < write.start.toNat + write.data.length :=
  decide_eq_true_iff

/-- The byte that a write puts at a place that it covers. -/
def put (write : Write) (place : Nat) : UInt8 :=
  write.data.getD (place - write.start.toNat) 0

end Write

/-- One write: the answer, and memory after it. A refused write leaves memory as it was. -/
def attempt (memory : Memory) (write : Write) : Except Fault Unit × Memory :=
  match memory.write write.start write.data with
  | .ok after => (.ok (), after)
  | .error fault => (.error fault, memory)

/-- Memory after a history of writes, refused ones among them. -/
def written (history : List Write) : Memory :=
  history.foldl (fun memory write => (memory.attempt write).2) .initial

/-- The byte at a place before anything is written: a byte of the font, or zero. -/
def firstByte (place : Nat) : UInt8 :=
  if 0x50 ≤ place ∧ place < 0xA0 then Font.sheet.getD (place - 0x50) 0 else 0

/-- The byte that a history of writes leaves at a place: the one that the last write covering the
place puts there, and the first byte if none does. -/
def leftBy (history : List Write) (place : Nat) : UInt8 :=
  match (history.filter (Write.covers place)).getLast? with
  | some last => last.put place
  | none => firstByte place

variable {memory : Memory}

/-! ## Single writes -/

/-- A write that fits takes place. -/
theorem attempt_of_fits {write : Write} (hfits : write.Fits) :
    memory.attempt write =
      (.ok (), { bytes := memory.bytes.overwrite write.start.toNat write.data }) := by
  rw [attempt, write_of_le memory hfits]

/-- A write that does not fit is refused as a whole. -/
theorem attempt_of_not_fits {write : Write} (hfits : ¬write.Fits) :
    memory.attempt write = (.error (outOfBounds write.start), memory) := by
  rw [attempt, write_of_lt memory (Nat.lt_of_not_le hfits)]

/-- A write succeeds exactly if it fits. -/
theorem attempt_eq_ok_iff {write : Write} : (memory.attempt write).1 = .ok () ↔ write.Fits := by
  by_cases hfits : write.Fits
  · rw [attempt_of_fits hfits]
    exact iff_of_true rfl hfits
  · rw [attempt_of_not_fits hfits]
    exact iff_of_false nofun hfits

/-- **A write puts its bytes where it covers, and changes no other byte.** -/
theorem get_attempt {place : Nat} (hplace : place < 4096) (memory : Memory) (write : Write) :
    (memory.attempt write).2.bytes[place] =
      if write.covers place then write.put place else memory.bytes[place] := by
  by_cases hfits : write.Fits
  · rw [attempt_of_fits hfits]
    refine (Block.getElem_overwrite _ _ _ _ hplace).trans ?_
    by_cases hin : write.start.toNat ≤ place ∧ place < write.start.toNat + write.data.length
    · rw [dif_pos hin, if_pos (Write.covers_iff.mpr ⟨hfits, hin⟩), Write.put,
        List.getD_eq_getElem _ _ (by omega)]
    · rw [dif_neg hin, if_neg fun hcovers => hin (Write.covers_iff.mp hcovers).2]
  · -- Even the places of the write that lie in memory are not covered.
    rw [attempt_of_not_fits hfits, if_neg fun hcovers => hfits (Write.covers_iff.mp hcovers).1]

/-! ## Histories of writes -/

/-- Before any write there are the first bytes. -/
theorem get_initial {place : Nat} (hplace : place < 4096) :
    initial.bytes[place] = firstByte place := by
  have hsheet : Font.sheet.length = 80 := Font.length_sheet
  rw [getElem_initial hplace, firstByte]
  by_cases hbehind : 0x50 ≤ place
  · by_cases hfont : place < 0xA0
    · rw [if_pos hbehind, if_pos ⟨hbehind, hfont⟩]
    · rw [if_pos hbehind, if_neg fun h => hfont h.2, List.getD_eq_default _ _ (by omega)]
  · rw [if_neg hbehind, if_neg fun h => hbehind h.1]

/-- **The last write that covers a place has put the byte there.** -/
theorem get_written {place : Nat} (hplace : place < 4096) (history : List Write) :
    (written history).bytes[place] = leftBy history place := by
  -- What is seen of memory is the byte at the place, and the writes that cover the place settle it.
  have hlast := view_foldl_of_settles (fun memory => memory.bytes[place]) (get_attempt hplace)
    initial history
  refine hlast.trans ?_
  rw [get_initial hplace, leftBy]
  cases (history.filter (Write.covers place)).getLast? with
  | none => rfl
  | some last => rfl

/-- A read gives what the history left in its places. -/
theorem read?_written {start : UInt16} {count : UInt64}
    (hin : start.toNat + count.toNat ≤ 4096) (history : List Write) :
    (written history).read? start count =
      some (.ok (List.ofFn fun k : Fin count.toNat => leftBy history (start.toNat + k))) := by
  rw [read?_of_count_le _ _ (by omega), read_of_le _ hin]
  congr 3
  funext k
  exact get_written _ history

/-! ## Bytes and words -/

variable {start : UInt16}

/-- A read of one byte is carried out, wherever it begins. -/
theorem read?_one : memory.read? start 1 = some (memory.read start 1) :=
  read?_of_count_le _ _ (by decide)

/-- So is a read of two bytes. -/
theorem read?_two : memory.read? start 2 = some (memory.read start 2) :=
  read?_of_count_le _ _ (by decide)

/-- A byte is what a read of one byte gives. -/
theorem byte_eq_ok_iff {byte : UInt8} :
    memory.byte start = .ok byte ↔ memory.read? start 1 = some (.ok [byte]) := by
  rw [read?_one, Option.some_inj]
  unfold Memory.byte
  by_cases hin : start.toNat < 4096
  · rw [dif_pos hin, read_of_le memory hin]
    simp
  · rw [dif_neg hin, read_of_lt memory (by omega)]
    exact iff_of_false nofun nofun

/-- It is refused when the read is. -/
theorem byte_eq_error_iff_read {fault : Fault} :
    memory.byte start = .error fault ↔ memory.read? start 1 = some (.error fault) := by
  rw [read?_one, Option.some_inj]
  unfold Memory.byte
  by_cases hin : start.toNat < 4096
  · rw [dif_pos hin, read_of_le memory hin]
    exact iff_of_false nofun nofun
  · rw [dif_neg hin, read_of_lt memory (by omega), Except.error.injEq, Except.error.injEq]

/-- The number of a word is put together from its two bytes, without wrapping. -/
theorem ofNat_bytes_eq_iff {word : UInt16} {high low : UInt8} :
    UInt16.ofNat (256 * high.toNat + low.toNat) = word ↔
      word.toNat = 256 * high.toNat + low.toNat := by
  have hhigh := high.toNat_lt
  have hlow := low.toNat_lt
  rw [← UInt16.toNat_inj, UInt16.toNat_ofNat_of_lt' (show _ < 65536 by omega)]
  exact eq_comm

/-- A word is what a read of two bytes gives, the more significant byte first. -/
theorem word_eq_ok_iff {word : UInt16} :
    memory.word start = .ok word ↔
      ∃ high low, memory.read? start 2 = some (.ok [high, low]) ∧
        word.toNat = 256 * high.toNat + low.toNat := by
  simp only [read?_two, Option.some_inj]
  unfold Memory.word
  by_cases hin : start.toNat + 1 < 4096
  · rw [dif_pos hin, read_of_le memory hin, Except.ok.injEq, ofNat_bytes_eq_iff]
    simp
  · rw [dif_neg hin, read_of_lt memory (by omega)]
    exact iff_of_false nofun nofun

/-- It is refused when the read is. -/
theorem word_eq_error_iff_read {fault : Fault} :
    memory.word start = .error fault ↔ memory.read? start 2 = some (.error fault) := by
  rw [read?_two, Option.some_inj, word_eq_error_iff, read_eq_error_iff]
  refine and_congr_left fun _ => ?_
  omega

/-- The two bytes of a word are the byte where it begins and the byte behind that. -/
theorem byte_of_word_eq_ok {word : UInt16} (hword : memory.word start = .ok word) :
    ∃ high low, memory.byte start = .ok high ∧ memory.byte (start + 1) = .ok low ∧
      word.toNat = 256 * high.toNat + low.toNat := by
  have hin := lt_of_word_eq_ok hword
  -- Where a word is fetched, the address of its second byte does not wrap around.
  have hnext : (start + 1).toNat = start.toNat + 1 := by
    rw [UInt16.toNat_add]
    exact Nat.mod_eq_of_lt (show start.toNat + 1 < 65536 by omega)
  refine ⟨memory.bytes[start.toNat], memory.bytes[start.toNat + 1], ?_, ?_, ?_⟩
  · exact dif_pos (by omega)
  · unfold Memory.byte
    simp only [hnext, dif_pos hin]
  · unfold Memory.word at hword
    rw [dif_pos hin, Except.ok.injEq] at hword
    exact ofNat_bytes_eq_iff.mp hword

/-- **Memory is a bounded map of bytes.** After any history of writes, of which some were refused, a
write succeeds exactly if all of it lies in memory; otherwise it names the farther one of where it
begins and where memory ends, and memory stays as it is. A read that stays in memory gives as many
bytes as were asked for, each the one that the last write covering its place put there, or the byte
of the font or zero that was there at first; a read that does not is refused as a write is, unless
its end overflows, and then it breaks off. A byte and a word are given and refused as reads of one
byte and of two are, and a word is 256 times its first byte and its second. -/
theorem memory_is_a_bounded_map_of_bytes (history : List Write) :
    let memory := written history
    (∀ write : Write,
        ((memory.attempt write).1 = .ok () ↔ write.start.toNat + write.data.length ≤ 4096) ∧
        (4096 < write.start.toNat + write.data.length →
          memory.attempt write =
            (.error (.memoryOutOfBounds (max write.start.toNat 4096)), memory))) ∧
      (∀ (start : UInt16) (count : UInt64),
        (start.toNat + count.toNat ≤ 4096 → memory.read? start count =
          some (.ok (List.ofFn fun k : Fin count.toNat => leftBy history (start.toNat + k)))) ∧
        (4096 < start.toNat + count.toNat → start.toNat + count.toNat < UInt64.size →
          memory.read? start count =
            some (.error (.memoryOutOfBounds (max start.toNat 4096)))) ∧
        (UInt64.size ≤ start.toNat + count.toNat → memory.read? start count = none)) ∧
      (∀ start : UInt16,
        (∀ byte, memory.byte start = .ok byte ↔ memory.read? start 1 = some (.ok [byte])) ∧
        (∀ fault, memory.byte start = .error fault ↔
          memory.read? start 1 = some (.error fault))) ∧
      ∀ start : UInt16,
        (∀ word, memory.word start = .ok word ↔
          ∃ high low, memory.read? start 2 = some (.ok [high, low]) ∧
            word.toNat = 256 * high.toNat + low.toNat) ∧
        (∀ fault, memory.word start = .error fault ↔
          memory.read? start 2 = some (.error fault)) ∧
        ∀ word, memory.word start = .ok word →
          ∃ high low, memory.byte start = .ok high ∧ memory.byte (start + 1) = .ok low ∧
            word.toNat = 256 * high.toNat + low.toNat := by
  intro memory
  refine ⟨?_, ?_, ?_, ?_⟩
  · intro write
    exact ⟨attempt_eq_ok_iff, fun hover => attempt_of_not_fits (Nat.not_le_of_lt hover)⟩
  · intro start count
    exact ⟨fun hin => read?_written hin history, read?_eq_error memory,
      read?_of_le memory⟩
  · intro start
    exact ⟨fun _ => byte_eq_ok_iff, fun _ => byte_eq_error_iff_read⟩
  · intro start
    exact ⟨fun _ => word_eq_ok_iff, fun _ => word_eq_error_iff_read, fun _ => byte_of_word_eq_ok⟩

/-- Four bytes are written up to the end of memory and one of them is written again. Two writes that
reach beyond the end are refused, one of them without any byte, and change nothing. -/
theorem memory_is_a_bounded_map_of_bytes_at_the_end :
    let history : List Write :=
      [⟨0xFFC, [1, 2, 3, 4]⟩, ⟨0xFFD, [5, 6, 7, 8]⟩, ⟨0xFFE, [9]⟩, ⟨0x1000, []⟩, ⟨0x1001, []⟩,
        ⟨0x4F, [0xAA]⟩]
    let memory := written history
    memory.read? 0xFFC 4 = some (.ok [1, 2, 9, 4]) ∧
      memory.read? 0x4F 3 = some (.ok [0xAA, 0xF0, 0x90]) ∧
      memory.attempt ⟨0xFFF, [0, 0]⟩ = (.error (.memoryOutOfBounds 0x1000), memory) ∧
      memory.word 0xFFE = .ok 0x0904 ∧
      memory.byte 0x1234 = .error (.memoryOutOfBounds 0x1234) := by
  intro history memory
  obtain ⟨hwrites, hreads, hbytes, hwords⟩ := memory_is_a_bounded_map_of_bytes history
  have hend : memory.read? 0xFFE 2 = some (.ok [9, 4]) := by
    rw [(hreads 0xFFE 2).1 (by decide)]
    decide
  refine ⟨?_, ?_, (hwrites ⟨0xFFF, [0, 0]⟩).2 (by decide), ?_, ?_⟩
  · rw [(hreads 0xFFC 4).1 (by decide)]
    decide
  · rw [(hreads 0x4F 3).1 (by decide)]
    decide
  · exact ((hwords 0xFFE).1 0x0904).mpr ⟨9, 4, hend, by decide⟩
  · exact ((hbytes 0x1234).2 _).mpr ((hreads 0x1234 1).2.1 (by decide) (by decide))

/-- **A read that is too long is not refused.** It begins at the second byte of memory and asks for
as many bytes as 64 bits can count. It leaves memory, but it does not name the end of memory, since
the sum of its start and its length overflows. -/
theorem long_read_is_not_refused :
    let start : UInt16 := 1
    let count : UInt64 := 0xFFFFFFFFFFFFFFFF
    4096 < start.toNat + count.toNat ∧
      (written []).read? start count = none ∧
      (written []).read? start count ≠
        some (.error (.memoryOutOfBounds (max start.toNat 4096))) := by
  intro start count
  have hbreaks : (written []).read? start count = none := read?_of_le _ (by decide)
  refine ⟨by decide, hbreaks, ?_⟩
  rw [hbreaks]
  exact nofun

end Chip8.Memory
