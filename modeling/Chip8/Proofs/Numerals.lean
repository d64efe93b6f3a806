import Chip8.Hexadecimal
import Mathlib.Algebra.Group.Nat.Defs
import Mathlib.Data.List.Induction

/-!
# Numbers in a text

Messages write sizes in decimal and addresses in hexadecimal digits. Both are read back here, by a
definition that does not go through the one that wrote them.

* `Numeral.digit?`, `Numeral.value?`: the value of a digit of some base, and of a row of digits.
* `Numeral.Spells`: that a row of digits stands for a number.
* `Numeral.IsDecimal`, `Numeral.IsAddress`: the spellings that messages use, a decimal one without
  leading zeros and a hexadecimal one of four digits, or of the fewest if four are too few.
* `isDecimal_toDigits`, `isAddress_padded`: that numbers and addresses are written so.
* `Numeral.read?`, `Spells.read?_append`: the number at the beginning of a text, and that it is the
  one that is spelled there if no further digit follows.
-/

namespace Chip8.Numeral

/-- The digits, in the order of their values. -/
def row : List Char :=
  "0123456789ABCDEF".toList

/-- The value of a digit of a base. Hexadecimal digits are upper-case. -/
def digit? (base : Nat) (digit : Char) : Option Nat :=
  (row.take base).idxOf? digit

/-- The value of digits, the most significant first. -/
def value? (base : Nat) (digits : List Char) : Option Nat :=
  digits.foldlM (fun value digit => (digit? base digit).map (base * value + ·)) 0

/-- Digits that stand for a number: there is one at least, and the number is their value. -/
structure Spells (base : Nat) (digits : List Char) (n : Nat) : Prop where
  /-- There is a digit. -/
  ne_nil : digits ≠ []
  /-- The number is their value. -/
  value : value? base digits = some n

/-- Digits that stand for a number as sizes are written: in decimal, without leading zeros. -/
structure IsDecimal (digits : List Char) (n : Nat) : Prop where
  /-- They stand for the number. -/
  spells : Spells 10 digits n
  /-- A zero in front is the only digit. -/
  plain : digits.head? = some '0' → digits = ['0']

/-- Digits that stand for a number as addresses are written: in hexadecimal, and four of them, or
the fewest if four are too few. -/
structure IsAddress (digits : List Char) (n : Nat) : Prop where
  /-- They stand for the number. -/
  spells : Spells 16 digits n
  /-- Four digits are enough for an address of two bytes. -/
  four : n < 0x10000 → digits.length = 4
  /-- A larger one takes as many as it needs. -/
  fewest : 0x10000 ≤ n → ∀ other, Spells 16 other n → digits.length ≤ other.length

variable {base n : Nat} {digits : List Char}

/-! ## Values -/

/-- The value of a digit is less than the base. -/
theorem lt_of_digit?_eq_some {digit : Char} {d : Nat} (h : digit? base digit = some d) :
    d < base := by
  obtain ⟨hlt, -⟩ := List.idxOf?_eq_some_iff.mp h
  exact Nat.lt_of_lt_of_le hlt (List.length_take_le base row)

/-- The first digit is the zero of every base. -/
theorem digit?_zero (hbase : 0 < base) : digit? base '0' = some 0 := by
  obtain ⟨rest, rfl⟩ := Nat.exists_eq_add_of_lt hbase
  rfl

/-- A further digit at the end counts once, and all others count once more. -/
theorem value?_append_eq_some_iff {digit : Char} :
    value? base (digits ++ [digit]) = some n ↔
      ∃ m d, value? base digits = some m ∧ digit? base digit = some d ∧ base * m + d = n := by
  rw [value?, List.foldlM_append]
  simp only [List.foldlM_cons, List.foldlM_nil, bind_pure, Option.bind_eq_bind,
    Option.bind_eq_some_iff, Option.map_eq_some_iff]
  constructor
  · rintro ⟨m, hm, d, hd, hn⟩
    exact ⟨m, d, hm, hd, hn⟩
  · rintro ⟨m, d, hm, hd, hn⟩
    exact ⟨m, hm, d, hd, hn⟩

/-- Zeros in front do not count. -/
theorem value?_zeros_append (hbase : 0 < base) (count : Nat) (digits : List Char) :
    value? base (List.replicate count '0' ++ digits) = value? base digits := by
  induction count with
  | zero => rfl
  | succ count ih =>
    rw [← ih, List.replicate_succ, List.cons_append, value?, List.foldlM_cons, digit?_zero hbase]
    rfl

/-- Only digits have a value. -/
theorem isSome_digit?_of_value? (h : value? base digits = some n) {digit : Char}
    (hmem : digit ∈ digits) : (digit? base digit).isSome = true := by
  induction digits using List.reverseRecOn generalizing n with
  | nil => cases hmem
  | append_singleton digits last ih =>
    obtain ⟨m, d, hm, hd, -⟩ := value?_append_eq_some_iff.mp h
    rcases List.mem_append.mp hmem with hmem | hmem
    · exact ih hm hmem
    · rw [List.mem_singleton.mp hmem, hd]
      rfl

/-- So many digits do not reach further. -/
theorem lt_pow_of_value? (h : value? base digits = some n) : n < base ^ digits.length := by
  induction digits using List.reverseRecOn generalizing n with
  | nil =>
    cases h
    exact Nat.one_pos
  | append_singleton digits last ih =>
    obtain ⟨m, d, hm, hd, rfl⟩ := value?_append_eq_some_iff.mp h
    have hle : base * (m + 1) ≤ base * base ^ digits.length := Nat.mul_le_mul_left base (ih hm)
    have hlt : d < base := lt_of_digit?_eq_some hd
    rw [List.length_append, List.length_singleton, Nat.pow_succ']
    calc base * m + d < base * m + base := Nat.add_lt_add_left hlt _
      _ = base * (m + 1) := (Nat.mul_succ base m).symm
      _ ≤ base * base ^ digits.length := hle

/-! ## Spellings -/

/-- No spelling of a number is shorter than its usual one. -/
theorem Spells.length_toDigits_le (h : Spells base digits n) (hbase : 1 < base) :
    (Nat.toDigits base n).length ≤ digits.length :=
  (Nat.length_toDigits_le_iff hbase (List.length_pos_iff.mpr h.ne_nil)).mpr
    (lt_pow_of_value? h.value)

/-- The usual spelling of a number stands for it, also when its digits are shown in another
shape. -/
theorem spells_map_toDigits (hbase : 1 < base) {shape : Char → Char}
    (hshape : ∀ d < base, digit? base (shape d.digitChar) = some d) (n : Nat) :
    Spells base ((Nat.toDigits base n).map shape) n := by
  refine ⟨by simp, ?_⟩
  induction n using Nat.strongRecOn with
  | ind n ih =>
    rw [Nat.toDigits_eq_if hbase]
    split_ifs with hlt
    · have hempty : value? base [] = some 0 := rfl
      exact value?_append_eq_some_iff.mpr ⟨0, n, hempty, hshape n hlt, by omega⟩
    · have hless : n / base < n := Nat.div_lt_self (by omega) hbase
      have hlast : n % base < base := Nat.mod_lt n (by omega)
      rw [List.map_append]
      exact value?_append_eq_some_iff.mpr
        ⟨n / base, n % base, ih _ hless, hshape _ hlast, Nat.div_add_mod n base⟩

/-- A spelling that is the shortest begins with a zero only if it is that of zero. -/
theorem Spells.eq_zero_of_fewest (h : Spells base digits n) (hbase : 0 < base)
    (hfewest : ∀ other, Spells base other n → digits.length ≤ other.length)
    (hzero : digits.head? = some '0') : digits = ['0'] := by
  obtain ⟨rest, rfl⟩ := List.head?_eq_some_iff.mp hzero
  by_cases hrest : rest = []
  · rw [hrest]
  · have hvalue : value? base rest = some n :=
      (value?_zeros_append hbase 1 rest).symm.trans h.value
    have hle := hfewest rest ⟨hrest, hvalue⟩
    rw [List.length_cons] at hle
    omega

/-- **Numbers are written in decimal without leading zeros.** -/
theorem isDecimal_toDigits (n : Nat) : IsDecimal (Nat.toDigits 10 n) n := by
  have hspells : Spells 10 ((Nat.toDigits 10 n).map id) n :=
    spells_map_toDigits (by decide) (by decide) n
  rw [List.map_id] at hspells
  exact ⟨hspells, hspells.eq_zero_of_fewest (by decide) fun other hother =>
    hother.length_toDigits_le (by decide)⟩

/-- **Addresses are written in hexadecimal with four digits**, and with the fewest if four are too
few. -/
theorem isAddress_padded (n : Nat) : IsAddress (Hexadecimal.padded 4 n) n := by
  have hspells : Spells 16 (Hexadecimal.digits n) n :=
    spells_map_toDigits (by decide) (by decide) n
  have hsame : (Hexadecimal.digits n).length = (Nat.toDigits 16 n).length := List.length_map _
  have hlength : (Hexadecimal.padded 4 n).length = max 4 (Nat.toDigits 16 n).length := by
    rw [Hexadecimal.length_padded, hsame]
  have hfour : (Nat.toDigits 16 n).length ≤ 4 ↔ n < 0x10000 :=
    Nat.length_toDigits_le_iff (by decide) (by decide)
  refine ⟨⟨?_, ?_⟩, ?_, ?_⟩
  · exact List.append_ne_nil_of_right_ne_nil _ hspells.ne_nil
  · exact (value?_zeros_append (by decide) _ _).trans hspells.value
  · intro hsmall
    rw [hlength, Nat.max_eq_left (hfour.mpr hsmall)]
  · intro hlarge other hother
    have hmore : ¬(Nat.toDigits 16 n).length ≤ 4 := mt hfour.mp (Nat.not_lt_of_le hlarge)
    rw [hlength, Nat.max_eq_right (Nat.le_of_not_le hmore)]
    exact hother.length_toDigits_le (by decide)

/-! ## Reading -/

/-- The number at the beginning of a text, in as many digits as there are, and the text behind
it. -/
def read? (base : Nat) (text : List Char) : Option (Nat × List Char) :=
  let digits := text.takeWhile fun digit => (digit? base digit).isSome
  if digits = [] then none
  else (value? base digits).map fun n => (n, text.drop digits.length)

/-- **A number is read back if no digit follows.** -/
theorem Spells.read?_append (h : Spells base digits n) {rest : List Char}
    (hend : ∀ next ∈ rest.head?, digit? base next = none) :
    read? base (digits ++ rest) = some (n, rest) := by
  have hrest : rest.takeWhile (fun digit => (digit? base digit).isSome) = [] := by
    cases rest with
    | nil => rfl
    | cons next rest => rw [List.takeWhile_cons, hend next rfl]; rfl
  have hdigits : (digits ++ rest).takeWhile (fun digit => (digit? base digit).isSome) = digits := by
    rw [List.takeWhile_append_of_pos fun _ hmem => isSome_digit?_of_value? h.value hmem, hrest,
      List.append_nil]
  unfold read?
  dsimp only
  rw [hdigits, if_neg h.ne_nil, h.value, List.drop_left]
  rfl

end Chip8.Numeral
