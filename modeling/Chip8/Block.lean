/-!
# Blocks of bytes

A block is a fixed number of bytes that is read and written in stretches.

* `Block.overwrite`: puts bytes one after the other from a starting place.
* `Block.read?`, `Block.write?`: the same access with its bounds checked; a stretch that leaves the
  block is refused as a whole.

`getElem_overwrite` says what every byte is afterwards, and `read?_write?` that a write is read back.
-/

namespace Chip8

/-- A block of `size` bytes. -/
abbrev Block (size : Nat) := Vector UInt8 size

namespace Block

variable {size : Nat}

/-- Puts `data` into the block from `start` on; bytes that would land outside are dropped. -/
def overwrite (block : Block size) (start : Nat) : List UInt8 → Block size
  | [] => block
  | byte :: rest => overwrite (block.setIfInBounds start byte) (start + 1) rest

/-- The `count` bytes from `start` on, if all of them lie in the block. -/
def read? (block : Block size) (start count : Nat) : Option (List UInt8) :=
  if h : start + count ≤ size then
    some (List.ofFn fun k : Fin count => block[start + k])
  else
    none

/-- Puts `data` into the block from `start` on, if all of it fits there. -/
def write? (block : Block size) (start : Nat) (data : List UInt8) : Option (Block size) :=
  if start + data.length ≤ size then some (block.overwrite start data) else none

/-! ## What a write leaves behind -/

/-- After an overwrite a byte is the datum that landed on it, or what it was. -/
theorem getElem_overwrite (block : Block size) (start : Nat) (data : List UInt8) (k : Nat)
    (hk : k < size) :
    (block.overwrite start data)[k] =
      if h : start ≤ k ∧ k < start + data.length then data[k - start] else block[k] := by
  induction data generalizing block start with
  | nil =>
    rw [overwrite, dif_neg]
    rw [List.length_nil]
    omega
  | cons byte rest ih =>
    rw [overwrite, ih, Vector.getElem_setIfInBounds]
    by_cases hlow : start = k
    · subst hlow
      rw [dif_neg (by omega), dif_pos (by rw [List.length_cons]; omega), if_pos rfl]
      simp only [Nat.sub_self, List.getElem_cons_zero]
    · by_cases hin : start + 1 ≤ k ∧ k < start + 1 + rest.length
      · have hin' : start ≤ k ∧ k < start + (byte :: rest).length := by
          rw [List.length_cons]
          omega
        rw [dif_pos hin, dif_pos hin', List.getElem_cons, dif_neg (by omega)]
        congr 1
      · have hin' : ¬(start ≤ k ∧ k < start + (byte :: rest).length) := by
          rw [List.length_cons]
          omega
        rw [dif_neg hin, dif_neg hin', if_neg hlow]

/-- After an overwrite a byte is the datum that landed on it, if there is one. -/
theorem getElem_overwrite_eq_getD (block : Block size) (start : Nat) (data : List UInt8) {k : Nat}
    (hk : k < size) :
    (block.overwrite start data)[k] =
      if start ≤ k then data.getD (k - start) block[k] else block[k] := by
  rw [getElem_overwrite]
  by_cases hlow : start ≤ k
  · by_cases hhigh : k < start + data.length
    · rw [dif_pos ⟨hlow, hhigh⟩, if_pos hlow, List.getElem_eq_getD block[k]]
    · rw [dif_neg (fun h => hhigh h.2), if_pos hlow, List.getD_eq_getElem?_getD,
        List.getElem?_eq_none (by omega), Option.getD_none]
  · rw [dif_neg (fun h => hlow h.1), if_neg hlow]

/-- A read that stays in the block gives the bytes at its places. -/
theorem read?_of_le (block : Block size) {start count : Nat} (h : start + count ≤ size) :
    block.read? start count = some (List.ofFn fun k : Fin count => block[start + k]) :=
  dif_pos h

/-- A read that leaves the block gives nothing. -/
theorem read?_of_lt (block : Block size) {start count : Nat} (h : size < start + count) :
    block.read? start count = none :=
  dif_neg (by omega)

/-- A read gives the byte at each of its places. -/
theorem getElem?_of_read? {block : Block size} {start count : Nat} {data : List UInt8}
    (h : block.read? start count = some data) {k : Nat} (hk : k < count) :
    block[start + k]? = data[k]? := by
  rw [read?] at h
  split at h
  · next hfits =>
    rw [← Option.some.inj h, List.getElem?_ofFn, dif_pos hk,
      Vector.getElem?_eq_getElem (by omega)]
  · cases h

/-- Two blocks with the same bytes in a stretch give the same there. -/
theorem read?_congr {left right : Block size} {start count : Nat}
    (h : ∀ k (hk : k < size), start ≤ k → k < start + count → left[k] = right[k]) :
    left.read? start count = right.read? start count := by
  unfold read?
  split
  · congr 2
    funext k
    exact h _ _ (Nat.le_add_right start k) (Nat.add_lt_add_left k.isLt start)
  · rfl

/-- What was written is read back. -/
theorem read?_write? {block after : Block size} {start : Nat} {data : List UInt8}
    (h : block.write? start data = some after) : after.read? start data.length = some data := by
  rw [write?] at h
  split at h
  · next hfits =>
    rw [← Option.some.inj h, read?_of_le _ hfits]
    congr 1
    apply List.ext_getElem
    · rw [List.length_ofFn]
    · intro k hk hk'
      rw [List.getElem_ofFn, getElem_overwrite, dif_pos (by dsimp only; omega)]
      congr 1
      exact Nat.add_sub_cancel_left start k
  · exact absurd h (by simp)

end Block

end Chip8
