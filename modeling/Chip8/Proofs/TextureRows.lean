import Chip8.Proofs.PackedScreen
import Chip8.Texture

/-!
# From the screen to a texture

Each pixel of the screen has its place in the picture of it, and each row of the picture has its
place in a buffer whose rows lie a pitch apart.

* `Texture.getElem?_ofScreen`: the three bytes of a pixel, so that a picture has only one screen
  (`ofScreen_inj`) and is dark exactly for the blank screen (`ofScreen_dark_iff`).
* `Texture.unpack`: the picture of packed rows, made byte by byte and bit by bit; it is the same
  (`unpack_rowBytes`).
* `Texture.copyRows_of_fits`: rows that fit into a buffer are all copied there, and nothing else is
  changed.
* `Texture.copy_is_faithful_at_every_pitch`: so a buffer of any pitch is given the picture, and
  gives it back.
-/

namespace Chip8.Texture

/-! ## The bytes of a picture -/

/-- In a list that is put together from blocks of one size, each block begins at a multiple of the
size. -/
theorem getElem?_flatMap_of_length {α β : Type} {size : Nat} {f : α → List β}
    (hsize : ∀ a, (f a).length = size) (l : List α) (k : Nat) {i : Nat} (hi : i < size) :
    (l.flatMap f)[size * k + i]? = l[k]?.bind fun a => (f a)[i]? := by
  induction l generalizing k with
  | nil => rfl
  | cons a rest ih =>
    rw [List.flatMap_cons]
    cases k with
    | zero =>
      rw [Nat.mul_zero, Nat.zero_add, List.getElem?_append_left (by rw [hsize]; exact hi)]
      rfl
    | succ k =>
      have hnext : size * (k + 1) + i = size + (size * k + i) := by
        rw [Nat.mul_succ]
        omega
      rw [hnext, List.getElem?_append_right (by rw [hsize]; omega), hsize,
        Nat.add_sub_cancel_left, ih, List.getElem?_cons_succ]

/-- A pixel has three bytes. -/
theorem length_pixelBytes (lit : Bool) : (pixelBytes lit).length = 3 :=
  List.length_replicate

/-- The picture has the bytes of each row at the row's place. -/
theorem getElem?_ofScreen_row (screen : Screen) {y k : Nat} (hy : y < 32) (hk : k < 192) :
    (ofScreen screen)[192 * y + k]? = (row screen y)[k]? := by
  rw [ofScreen, getElem?_flatMap_of_length (length_row screen) _ _ hk, List.getElem?_range hy,
    Option.bind_some]

/-- The three bytes of each pixel are 255 if it is lit and 0 if it is dark. -/
theorem getElem?_ofScreen (screen : Screen) {x y channel : Nat} (hx : x < 64) (hy : y < 32)
    (hchannel : channel < 3) :
    (ofScreen screen)[3 * (64 * y + x) + channel]? =
      some (if screen.pixel x y then 255 else 0) := by
  have hplace : 3 * (64 * y + x) + channel = 192 * y + (3 * x + channel) := by omega
  rw [hplace, getElem?_ofScreen_row screen hy (by omega), row,
    getElem?_flatMap_of_length (fun x => length_pixelBytes (screen.pixel x y)) _ _ hchannel,
    List.getElem?_range hx, Option.bind_some, pixelBytes, List.getElem?_replicate, if_pos hchannel]

/-- Only one screen has a given picture. -/
theorem ofScreen_inj {left right : Screen} : ofScreen left = ofScreen right ↔ left = right := by
  refine ⟨fun hsame => Screen.ext_pixel fun x hx y hy => ?_, congrArg ofScreen⟩
  have hbytes := getElem?_ofScreen left hx hy (show 0 < 3 by decide)
  rw [hsame, getElem?_ofScreen right hx hy (by decide), Option.some.injEq] at hbytes
  cases hleft : left.pixel x y <;> cases hright : right.pixel x y <;> simp_all

/-- The screen is blank exactly if every pixel is dark. -/
theorem isBlank_iff {screen : Screen} :
    screen.isBlank = true ↔ ∀ x < 64, ∀ y < 32, screen.pixel x y = false := by
  constructor
  · intro hblank x _ y _
    have hrow := Vector.all_eq_true.mp hblank (y % 32) (Nat.mod_lt y (by decide))
    rw [Screen.pixel, Screen.row, eq_of_beq hrow]
    exact BitVec.getMsbD_zero
  · intro hdark
    have hsame : screen = Screen.blank := by
      apply Screen.ext_pixel
      intro x hx y hy
      rw [hdark x hx y hy, Screen.pixel_blank]
    simp [hsame, Screen.isBlank, Screen.blank]

/-- A picture holds nothing but the bytes of its pixels. -/
theorem mem_ofScreen {screen : Screen} {byte : UInt8} :
    byte ∈ ofScreen screen ↔ ∃ y < 32, ∃ x < 64, byte = if screen.pixel x y then 255 else 0 := by
  simp [ofScreen, row, pixelBytes]

/-- The picture is dark exactly if the screen is blank. -/
theorem ofScreen_dark_iff {screen : Screen} :
    (∀ byte ∈ ofScreen screen, byte = 0) ↔ screen.isBlank = true := by
  rw [isBlank_iff]
  constructor
  · intro hdark x hx y hy
    have hbyte := hdark _ (mem_ofScreen.mpr ⟨y, hy, x, hx, rfl⟩)
    cases hpixel : screen.pixel x y
    · rfl
    · rw [hpixel] at hbyte
      cases hbyte
  · intro hdark byte hmem
    obtain ⟨y, hy, x, hx, rfl⟩ := mem_ofScreen.mp hmem
    rw [hdark x hx y hy]
    rfl

/-! ## The same picture from packed rows -/

/-- The bits of a byte, the leftmost first. -/
def byteBits (byte : UInt8) : List UInt8 :=
  (List.range 8).map fun bit => byte >>> UInt8.ofNat (7 - bit) &&& 1

/-- The picture of packed rows: each bit of each byte, spread over the bytes of a pixel. -/
def unpack (rows : List (List UInt8)) : List UInt8 :=
  (rows.flatten.flatMap byteBits).flatMap fun bit => List.replicate pixelSize (bit * 255)

/-- A bit of one byte of a packed row is the pixel that lies there. -/
theorem shiftRight_and_one_eq (row : BitVec 64) {k bit : Nat} (hk : k < 8) (hbit : bit < 8) :
    UInt8.ofBitVec (row.extractLsb' (8 * (7 - k)) 8) >>> UInt8.ofNat (7 - bit) &&& 1 =
      (row.getMsbD (8 * k + bit)).toUInt8 := by
  have hall : ∀ byte : BitVec 8, ∀ place : Fin 8,
      UInt8.ofBitVec byte >>> UInt8.ofNat (7 - place.val) &&& 1 =
        (byte.getMsbD place.val).toUInt8 := by
    decide +kernel
  refine (hall _ ⟨bit, hbit⟩).trans ?_
  rw [Checked.getMsbD_rowByte row hk hbit]

/-- The bits of a packed row are its pixels. -/
theorem flatMap_byteBits_rowBytes (row : BitVec 64) :
    (Screen.rowBytes row).flatMap byteBits =
      (List.range 64).map fun x => (row.getMsbD x).toUInt8 := by
  have hblocks (f : Nat → UInt8) :
      (List.range 64).map f =
        (List.range 8).flatMap fun k => (List.range 8).map fun bit => f (8 * k + bit) :=
    rfl
  rw [hblocks, Screen.rowBytes, List.flatMap_map]
  apply List.flatMap_congr
  intro k hk
  apply List.map_congr_left
  intro bit hbit
  exact shiftRight_and_one_eq row (List.mem_range.mp hk) (List.mem_range.mp hbit)

/-- **Unpacking the bytes of the screen gives its picture.** -/
theorem unpack_rowBytes (screen : Screen) :
    unpack (screen.rows.toList.map Screen.rowBytes) = ofScreen screen := by
  have hrows : screen.rows.toList = (List.range 32).map screen.row := by
    apply List.ext_getElem
    · simp
    · intro y hy hy'
      simp [Screen.row, Nat.mod_eq_of_lt (show y < 32 by simpa using hy)]
  rw [unpack, hrows, List.map_map, ← List.flatMap_def, List.flatMap_assoc, List.flatMap_assoc]
  apply List.flatMap_congr
  intro y _
  rw [← List.flatMap_assoc, Function.comp_apply, flatMap_byteBits_rowBytes, List.flatMap_map]
  apply List.flatMap_congr
  intro x hx
  rw [Screen.pixel, Nat.mod_eq_of_lt (List.mem_range.mp hx)]
  cases (screen.row y).getMsbD x <;> rfl

/-! ## Rows that lie a pitch apart -/

/-- The stretches of a row's size that a picture falls into. -/
def chunks (picture : List UInt8) : List (List UInt8) :=
  (List.range ((picture.length + (rowSize - 1)) / rowSize)).map fun y =>
    (picture.drop (rowSize * y)).take rowSize

/-- The picture in a buffer whose rows begin `pitch` bytes apart, if all its rows are there. -/
def readBack? {size : Nat} (buffer : Block size) (pitch : Nat) : Option (List UInt8) :=
  ((List.range Screen.height).mapM (rowOf? buffer pitch)).map List.flatten

/-- The picture of a screen falls into the rows of the screen. -/
theorem chunks_ofScreen (screen : Screen) :
    chunks (ofScreen screen) = (List.range Screen.height).map (row screen) := by
  have hcount : ((ofScreen screen).length + (rowSize - 1)) / rowSize = Screen.height := by
    rw [length_ofScreen]
    rfl
  rw [chunks, hcount]
  apply List.map_congr_left
  intro y hy
  apply List.ext_getElem?
  intro k
  rw [List.getElem?_take]
  split
  · next hk =>
    rw [List.getElem?_drop]
    exact getElem?_ofScreen_row screen (List.mem_range.mp hy) hk
  · next hk =>
    rw [List.getElem?_eq_none (by rw [length_row]; omega)]

/-- Rows that fit into a buffer are copied there, each to its place, and no other byte is
changed. -/
theorem copyRows_of_fits {size pitch start : Nat} {rows : List (List UInt8)} (buffer : Block size)
    (hpitch : rowSize ≤ pitch) (hrows : ∀ row ∈ rows, row.length = rowSize)
    (hfits : start + rows.length * pitch ≤ size) :
    ∃ after, copyRows pitch start rows buffer = some after ∧
      (∀ y (hy : y < rows.length), after.read? (start + y * pitch) rowSize = some rows[y]) ∧
      ∀ place (hplace : place < size),
        (∀ y < rows.length, place < start + y * pitch ∨ start + y * pitch + rowSize ≤ place) →
        after[place] = buffer[place] := by
  induction rows generalizing buffer start with
  | nil => exact ⟨buffer, rfl, fun y hy => absurd hy (Nat.not_lt_zero y), fun _ _ _ => rfl⟩
  | cons row rest ih =>
    have hlength : row.length = rowSize := hrows row List.mem_cons_self
    rw [List.length_cons, Nat.succ_mul] at hfits
    have hwrite : buffer.write? start row = some (buffer.overwrite start row) :=
      if_pos (by omega)
    have hrest : start + pitch + rest.length * pitch ≤ size := by omega
    obtain ⟨after, hcopy, hread, hkept⟩ := ih (buffer.overwrite start row)
      (fun other hother => hrows other (List.mem_cons_of_mem row hother)) hrest
    refine ⟨after, ?_, ?_, ?_⟩
    · rw [copyRows, hwrite]
      exact hcopy
    · intro y hy
      cases y with
      | zero =>
        -- The later rows begin behind the first one.
        have hfirst : after.read? start rowSize = (buffer.overwrite start row).read? start rowSize := by
          apply Block.read?_congr
          intro place hplace _ hbefore
          exact hkept place hplace fun y _ => .inl (by omega)
        rw [Nat.zero_mul, Nat.add_zero, hfirst, ← hlength]
        exact Block.read?_write? hwrite
      | succ y =>
        have hnext : start + (y + 1) * pitch = start + pitch + y * pitch := by
          rw [Nat.succ_mul]
          omega
        rw [hnext]
        exact hread y (Nat.lt_of_succ_lt_succ hy)
    · intro place hplace hother
      have hlater : after[place] = (buffer.overwrite start row)[place] := by
        apply hkept place hplace
        intro y hy
        have hnext := hother (y + 1) (Nat.succ_lt_succ hy)
        rw [Nat.succ_mul] at hnext
        omega
      have hfirst := hother 0 (Nat.succ_pos _)
      rw [hlater, Block.getElem_overwrite, dif_neg (by omega)]

/-- What lies behind the bytes of its row belongs to no row. -/
theorem outside_rows {pitch place : Nat} (hpitch : 0 < pitch) (hplace : rowSize ≤ place % pitch)
    (y : Nat) : place < y * pitch ∨ y * pitch + rowSize ≤ place := by
  rcases Nat.lt_or_ge place (y * pitch) with hbefore | hbehind
  · exact .inl hbefore
  · have hrow : y * pitch ≤ place / pitch * pitch :=
      Nat.mul_le_mul_right pitch ((Nat.le_div_iff_mul_le hpitch).mpr hbehind)
    have hsplit := Nat.div_add_mod' place pitch
    right
    omega

/-- Rows that are all there are read back one after the other. -/
theorem readBack?_of_rows {size pitch : Nat} {buffer : Block size} {rows : Nat → List UInt8}
    (hrows : ∀ y < 32, rowOf? buffer pitch y = some (rows y)) :
    readBack? buffer pitch = some ((List.range 32).flatMap rows) := by
  have hall (heights : List Nat) (hheights : ∀ y ∈ heights, y < 32) :
      heights.mapM (rowOf? buffer pitch) = some (heights.map rows) := by
    induction heights with
    | nil => rfl
    | cons y rest ih =>
      rw [List.mapM_cons, hrows y (hheights y List.mem_cons_self),
        ih fun other hother => hheights other (List.mem_cons_of_mem y hother)]
      rfl
  rw [readBack?, hall _ fun y hy => List.mem_range.mp hy]
  rfl

/-- **A screen reaches the display unchanged, whatever the pitch.** Its picture has three bytes for
each pixel, 255 or 0, at the pixel's place, and is what unpacking the bytes of the screen gives; it
tells the screen, and whether the screen is blank. If rows begin 192 bytes apart or more, then
copying them stays inside every buffer of 32 such rows: each row of the picture lies at its place
there, all bytes between the rows are as they were, and the buffer gives the picture back. -/
theorem copy_is_faithful_at_every_pitch (screen : Screen) :
    unpack (screen.rows.toList.map Screen.rowBytes) = ofScreen screen ∧
      (ofScreen screen).length = 6144 ∧
      (∀ x < 64, ∀ y < 32, ∀ channel < 3, (ofScreen screen)[3 * (64 * y + x) + channel]? =
        some (if screen.pixel x y then 255 else 0)) ∧
      (∀ other : Screen, ofScreen other = ofScreen screen ↔ other.rows = screen.rows) ∧
      ((∀ byte ∈ ofScreen screen, byte = 0) ↔ screen.isBlank = true) ∧
      ∀ pitch ≥ 192, ∀ buffer : Block (32 * pitch), ∃ after,
        copyRows pitch 0 (chunks (ofScreen screen)) buffer = some after ∧
          copyTo screen pitch buffer = some after ∧
          (∀ y < 32, ∀ k < 192, after[y * pitch + k]? = (ofScreen screen)[192 * y + k]?) ∧
          (∀ place, 192 ≤ place % pitch → after[place]? = buffer[place]?) ∧
          readBack? after pitch = some (ofScreen screen) := by
  refine ⟨unpack_rowBytes screen, length_ofScreen screen, ?_, ?_, ofScreen_dark_iff, ?_⟩
  · intro x hx y hy channel hchannel
    exact getElem?_ofScreen screen hx hy hchannel
  · intro other
    rw [ofScreen_inj, Screen.mk.injEq]
  · intro pitch hpitch buffer
    have hlengths : ∀ bytes ∈ (List.range Screen.height).map (row screen),
        bytes.length = rowSize := by
      intro bytes hmem
      obtain ⟨y, -, rfl⟩ := List.mem_map.mp hmem
      exact length_row screen y
    have hfits : 0 + ((List.range Screen.height).map (row screen)).length * pitch ≤ 32 * pitch := by
      rw [List.length_map, List.length_range, Nat.zero_add]
    obtain ⟨after, hcopy, hread, hkept⟩ := copyRows_of_fits buffer hpitch hlengths hfits
    simp only [List.length_map, List.length_range, Nat.zero_add, List.getElem_map,
      List.getElem_range] at hread hkept
    refine ⟨after, ?_, hcopy, ?_, ?_, readBack?_of_rows hread⟩
    · rw [chunks_ofScreen]
      exact hcopy
    · intro y hy k hk
      rw [Block.getElem?_of_read? (hread y hy) hk, getElem?_ofScreen_row screen hy hk]
    · intro place hplace
      have hpos : 0 < pitch := Nat.lt_of_lt_of_le (by decide) hpitch
      rcases Nat.lt_or_ge place (32 * pitch) with hin | hout
      · rw [Vector.getElem?_eq_getElem hin, Vector.getElem?_eq_getElem hin,
          hkept place hin fun y _ => outside_rows hpos hplace y]
      · rw [Vector.getElem?_eq_none hout, Vector.getElem?_eq_none hout]

/-- Two pixels in a corner, in a buffer of sevens whose rows begin 200 bytes apart: the eight bytes
behind each row stay sevens, and the picture is read back as from a buffer without such bytes. -/
theorem copy_is_faithful_at_every_pitch_padded :
    let screen := ((Screen.blank.drawRow 1 0 0x80).1.drawRow 0 1 0x80).1
    let sevens : Block (32 * 200) := Vector.replicate 6400 7
    let zeros : Block (32 * 192) := Vector.replicate 6144 0
    ∃ padded tight, copyTo screen 200 sevens = some padded ∧ copyTo screen 192 zeros = some tight ∧
      padded[5]? = some 255 ∧ padded[6]? = some 0 ∧ padded[192]? = some 7 ∧
      padded[199]? = some 7 ∧ padded[200]? = some 255 ∧ tight[192]? = some 255 ∧
      readBack? padded 200 = readBack? tight 192 := by
  intro screen sevens zeros
  obtain ⟨-, -, hpixels, -, -, hcopy⟩ := copy_is_faithful_at_every_pitch screen
  obtain ⟨padded, -, hpadded, hrows, hbetween, hread⟩ := hcopy 200 (by decide) sevens
  obtain ⟨tight, -, htight, hrows', -, hread'⟩ := hcopy 192 (by decide) zeros
  have hlit : screen.pixel 1 0 = true ∧ screen.pixel 2 0 = false ∧ screen.pixel 0 1 = true := by
    decide +kernel
  obtain ⟨hright, hdark, hbelow⟩ := hlit
  have hfirst := hpixels 1 (by decide) 0 (by decide) 2 (by decide)
  have hsecond := hpixels 2 (by decide) 0 (by decide) 0 (by decide)
  have hthird := hpixels 0 (by decide) 1 (by decide) 0 (by decide)
  rw [hright] at hfirst
  rw [hdark] at hsecond
  rw [hbelow] at hthird
  refine ⟨padded, tight, hpadded, htight, ?_, ?_, ?_, ?_, ?_, ?_, hread.trans hread'.symm⟩
  · exact (hrows 0 (by decide) 5 (by decide)).trans hfirst
  · exact (hrows 0 (by decide) 6 (by decide)).trans hsecond
  · exact (hbetween 192 (by decide)).trans (by simp [sevens])
  · exact (hbetween 199 (by decide)).trans (by simp [sevens])
  · exact (hrows 1 (by decide) 0 (by decide)).trans hthird
  · exact (hrows' 1 (by decide) 0 (by decide)).trans hthird

end Chip8.Texture
