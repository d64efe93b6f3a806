/-!
# Keys

Sixteen keys, numbered by hexadecimal digits.

* `Keyboard`: what a machine sees of the keys in one step. The key that ends a wait is the lowest
  one that is down, unless a keyboard chooses otherwise.
* `Keypad`: the keys that are held down, with `press`, `release` and `clear`. Numbers above fifteen
  are no keys: pressing them changes nothing and they are never down.
-/

namespace Chip8

/-- The lowest of the keys 0 to 15 that a test holds of. -/
def Keyboard.lowest (isPressed : UInt8 → Bool) : Option UInt8 :=
  ((List.range 16).map UInt8.ofNat).find? isPressed

/-- What a machine sees of the keys in one step. -/
structure Keyboard where
  /-- Whether a key is down. -/
  isPressed : UInt8 → Bool
  /-- The key that ends a wait, if one is down. -/
  pressedKey : Option UInt8 := Keyboard.lowest isPressed

/-- The keys that are held down. -/
structure Keypad where
  /-- Whether each key is down. -/
  down : Vector Bool 16
  deriving DecidableEq

namespace Keypad

/-- The number of keys. -/
abbrev keyCount : Nat := 16

/-- No key is down. -/
def empty : Keypad where
  down := Vector.replicate keyCount false

instance : Inhabited Keypad := ⟨empty⟩

/-- Puts a key down. -/
def press (keypad : Keypad) (key : UInt8) : Keypad where
  down := keypad.down.setIfInBounds key.toNat true

/-- Lets a key go. -/
def release (keypad : Keypad) (key : UInt8) : Keypad where
  down := keypad.down.setIfInBounds key.toNat false

/-- Lets every key go. -/
def clear (_ : Keypad) : Keypad :=
  empty

/-- Whether a key is down. -/
def isPressed (keypad : Keypad) (key : UInt8) : Bool :=
  keypad.down[key.toNat]?.getD false

/-- What a machine sees of a keypad. -/
def keyboard (keypad : Keypad) : Keyboard where
  isPressed := keypad.isPressed

/-- The lowest key that is down. -/
def pressedKey (keypad : Keypad) : Option UInt8 :=
  keypad.keyboard.pressedKey

/-! ## Which keys are down -/

/-- No key of the empty keypad is down. -/
@[simp] theorem isPressed_empty (key : UInt8) : empty.isPressed key = false := by
  rw [isPressed, empty, Vector.getElem?_replicate]
  split <;> rfl

/-- After a press the pressed key is down, if it is a key, and the others are as they were. -/
theorem isPressed_press (keypad : Keypad) (pressed key : UInt8) :
    (keypad.press pressed).isPressed key =
      if key = pressed ∧ key < 16 then true else keypad.isPressed key := by
  simp only [isPressed, press, Vector.getElem?_setIfInBounds, UInt8.lt_iff_toNat_lt]
  by_cases h : key = pressed
  · subst h
    by_cases hk : key.toNat < 16
    · simp [hk]
    · simp [hk]
  · have hne : pressed.toNat ≠ key.toNat := fun heq => h (UInt8.toNat_inj.mp heq).symm
    simp [h, hne]

/-- After a release the released key is up and the others are as they were. -/
theorem isPressed_release (keypad : Keypad) (released key : UInt8) :
    (keypad.release released).isPressed key =
      if key = released then false else keypad.isPressed key := by
  simp only [isPressed, release, Vector.getElem?_setIfInBounds]
  by_cases h : key = released
  · subst h
    by_cases hk : key.toNat < 16
    · simp [hk]
    · simp [hk]
  · have hne : released.toNat ≠ key.toNat := fun heq => h (UInt8.toNat_inj.mp heq).symm
    simp [h, hne]

/-- Pressing a number above fifteen changes nothing. -/
theorem press_of_le (keypad : Keypad) {key : UInt8} (h : 16 ≤ key) : keypad.press key = keypad := by
  rw [press, Vector.setIfInBounds_eq_of_size_le (UInt8.le_iff_toNat_le.mp h)]

/-- Nor does letting go of one. -/
theorem release_of_le (keypad : Keypad) {key : UInt8} (h : 16 ≤ key) :
    keypad.release key = keypad := by
  rw [release, Vector.setIfInBounds_eq_of_size_le (UInt8.le_iff_toNat_le.mp h)]

/-- Numbers above fifteen are never down. -/
theorem isPressed_of_le (keypad : Keypad) {key : UInt8} (h : 16 ≤ key) :
    keypad.isPressed key = false := by
  rw [isPressed, Vector.getElem?_eq_none (UInt8.le_iff_toNat_le.mp h)]
  rfl

end Keypad

end Chip8
