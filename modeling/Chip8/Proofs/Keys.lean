import Chip8.Proofs.Runs

/-!
# Which key a keyboard offers

* `Keyboard.lowest_eq_none_iff`, `Keyboard.lowest_eq_some_iff`: the search for the lowest key that
  is down.
* `Keyboard.Idle`, `Keyboard.Offers`: the keyboards that leave a wait on and that end it, said on
  the sixteen keys.
-/

namespace Chip8.Keyboard

variable {isPressed : UInt8 → Bool}

/-- The search finds nothing exactly when none of the sixteen keys is down. -/
theorem lowest_eq_none_iff : lowest isPressed = none ↔ ∀ key < 16, isPressed key = false := by
  rw [lowest, List.find?_map, Option.map_eq_none_iff, List.find?_range_eq_none]
  constructor
  · intro hup key hkey
    have hup := hup key.toNat (UInt8.lt_iff_toNat_lt.mp hkey)
    rwa [Function.comp_apply, UInt8.ofNat_toNat, Bool.not_eq_true'] at hup
  · intro hup number hnumber
    have hkey : (UInt8.ofNat number).toNat = number :=
      UInt8.toNat_ofNat_of_lt (Nat.lt_trans hnumber (by decide))
    rw [Function.comp_apply, hup, Bool.not_false]
    rw [UInt8.lt_iff_toNat_lt, hkey]
    exact hnumber

/-- The search finds the key that is down while all below it are up. -/
theorem lowest_eq_some_iff {key : UInt8} :
    lowest isPressed = some key ↔
      key < 16 ∧ isPressed key = true ∧ ∀ lower < key, isPressed lower = false := by
  rw [lowest, List.find?_map, Option.map_eq_some_iff]
  constructor
  · rintro ⟨number, hfind, rfl⟩
    obtain ⟨hdown, hmem, hleast⟩ := List.find?_range_eq_some.mp hfind
    have hlt := List.mem_range.mp hmem
    have hkey : (UInt8.ofNat number).toNat = number :=
      UInt8.toNat_ofNat_of_lt (Nat.lt_trans hlt (by decide))
    refine ⟨?_, hdown, ?_⟩
    · rw [UInt8.lt_iff_toNat_lt, hkey]
      exact hlt
    · intro lower hlower
      rw [UInt8.lt_iff_toNat_lt, hkey] at hlower
      have hup := hleast lower.toNat hlower
      rwa [Function.comp_apply, UInt8.ofNat_toNat, Bool.not_eq_true'] at hup
  · rintro ⟨hlt, hdown, hleast⟩
    refine ⟨key.toNat, List.find?_range_eq_some.mpr ⟨?_, ?_, ?_⟩, UInt8.ofNat_toNat⟩
    · rwa [Function.comp_apply, UInt8.ofNat_toNat]
    · exact List.mem_range.mpr (UInt8.lt_iff_toNat_lt.mp hlt)
    · intro number hnumber
      have hnumberKey : (UInt8.ofNat number).toNat = number :=
        UInt8.toNat_ofNat_of_lt (Nat.lt_trans hnumber key.toNat_lt)
      rw [Function.comp_apply, hleast, Bool.not_false]
      rw [UInt8.lt_iff_toNat_lt, hnumberKey]
      exact hnumber

/-- A keyboard on which none of the sixteen keys is down. -/
structure Idle (keyboard : Keyboard) : Prop where
  /-- It ends a wait with the lowest key that is down. -/
  picksLowest : keyboard.PicksLowest
  /-- No key is down. -/
  up : ∀ key < 16, keyboard.isPressed key = false

/-- A keyboard whose lowest key that is down is `key`. -/
structure Offers (keyboard : Keyboard) (key : UInt8) : Prop where
  /-- It ends a wait with the lowest key that is down. -/
  picksLowest : keyboard.PicksLowest
  /-- It is one of the sixteen. -/
  lt : key < 16
  /-- It is down. -/
  down : keyboard.isPressed key = true
  /-- All keys below it are up. -/
  least : ∀ lower < key, keyboard.isPressed lower = false

/-- An idle keyboard has no key to end a wait with. -/
theorem Idle.pressedKey {keyboard : Keyboard} (hidle : keyboard.Idle) :
    keyboard.pressedKey = none :=
  hidle.picksLowest.trans (lowest_eq_none_iff.mpr hidle.up)

/-- A keyboard ends a wait with the key that it offers. -/
theorem Offers.pressedKey {keyboard : Keyboard} {key : UInt8} (hoffers : keyboard.Offers key) :
    keyboard.pressedKey = some key :=
  hoffers.picksLowest.trans
    (lowest_eq_some_iff.mpr ⟨hoffers.lt, hoffers.down, hoffers.least⟩)

end Chip8.Keyboard
