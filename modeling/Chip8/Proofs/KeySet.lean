import Chip8.Proofs.Histories
import Chip8.Proofs.Keys

/-!
# The keypad as a set of keys

* `Keypad.Operation`, `Keypad.perform`: what is done to a keypad.
* `Operation.key?`, `Operation.concerns`: the key that an operation presses or releases, and the
  keys that it decides over. Letting every key go decides over all of them.
* `isPressed_perform`, `isPressed_foldl`: an operation decides over the keys that it concerns and
  over no other, so that after a history the last operation that concerns a key has decided over it.
* `ext_isPressed`: a keypad is the set of the keys that are down.
* `perform_comm`: operations that concern no common key can change places.
* `keypad_is_a_set_of_keys`: all of this together, with the search for the lowest key that is down.

Any number can be pressed and released. Numbers above fifteen are in no set.
-/

namespace Chip8.Keypad

/-- What is done to a keypad. -/
inductive Operation
  /-- A key goes down. -/
  | press (key : UInt8)
  /-- A key goes up. -/
  | release (key : UInt8)
  /-- Every key goes up. -/
  | clear
  deriving DecidableEq

namespace Operation

/-- The key that is pressed or released. -/
def key? : Operation → Option UInt8
  | press key | release key => some key
  | clear => none

/-- Whether an operation decides over a key: it presses or releases that key, or lets every key
go. -/
def concerns (key : UInt8) : Operation → Bool
  | press other | release other => other == key
  | clear => true

/-- A press or a release concerns its own key only. -/
theorem eq_of_concerns {operation : Operation} {key other : UInt8}
    (hkey : operation.key? = some key) (hconcerns : operation.concerns other = true) :
    key = other := by
  cases operation with
  | press pressed =>
    cases hkey
    exact beq_iff_eq.mp hconcerns
  | release released =>
    cases hkey
    exact beq_iff_eq.mp hconcerns
  | clear => cases hkey

end Operation

/-- A keypad after one operation. -/
def perform (keypad : Keypad) : Operation → Keypad
  | .press key => keypad.press key
  | .release key => keypad.release key
  | .clear => keypad.clear

/-! ## Which keys are down -/

/-- Only keys below sixteen are down. -/
theorem lt_of_isPressed {keypad : Keypad} {key : UInt8} (hdown : keypad.isPressed key = true) :
    key < 16 := by
  by_contra hkey
  rw [isPressed_of_le keypad (UInt8.not_lt.mp hkey)] at hdown
  cases hdown

variable (keypad : Keypad)

/-- **An operation decides over the keys that it concerns**, and over no other. -/
theorem isPressed_perform {key : UInt8} (hkey : key < 16) (operation : Operation) :
    (keypad.perform operation).isPressed key =
      if operation.concerns key then operation == .press key else keypad.isPressed key := by
  cases operation with
  | press pressed =>
    rw [perform, isPressed_press]
    by_cases hsame : key = pressed
    · simp [Operation.concerns, hsame, hsame ▸ hkey]
    · simp [Operation.concerns, hsame, Ne.symm hsame]
  | release released =>
    rw [perform, isPressed_release]
    by_cases hsame : key = released
    · simp [Operation.concerns, hsame]
    · simp [Operation.concerns, hsame, Ne.symm hsame]
  | clear =>
    rw [perform, clear, isPressed_empty]
    rfl

/-- **The last operation that concerns a key has decided over it.** -/
theorem isPressed_foldl {key : UInt8} (hkey : key < 16) (history : List Operation) :
    (history.foldl perform .empty).isPressed key =
      ((history.filter (Operation.concerns key)).getLast? == some (.press key)) := by
  have hlast := view_foldl_of_settles (fun keypad => isPressed keypad key)
    (fun keypad => isPressed_perform keypad hkey) .empty history
  rw [hlast, isPressed_empty]
  cases (history.filter (Operation.concerns key)).getLast? with
  | none => rfl
  | some last => rfl

/-- A key is down after a history exactly if the last operation that concerns it presses it. -/
theorem isPressed_foldl_iff (history : List Operation) (key : UInt8) :
    (history.foldl perform .empty).isPressed key = true ↔
      key < 16 ∧ (history.filter (Operation.concerns key)).getLast? = some (.press key) := by
  constructor
  · intro hdown
    have hkey := lt_of_isPressed hdown
    rw [isPressed_foldl hkey, beq_iff_eq] at hdown
    exact ⟨hkey, hdown⟩
  · rintro ⟨hkey, hlast⟩
    rw [isPressed_foldl hkey, beq_iff_eq]
    exact hlast

/-! ## The lowest key that is down -/

/-- The key offered is down, and all below it are up. -/
theorem pressedKey_eq_some_iff {key : UInt8} :
    keypad.pressedKey = some key ↔
      keypad.isPressed key = true ∧ ∀ lower < key, keypad.isPressed lower = false :=
  Keyboard.lowest_eq_some_iff.trans
    (and_iff_right_of_imp fun hleast => lt_of_isPressed hleast.1)

/-- No key is offered while all are up. -/
theorem pressedKey_eq_none_iff :
    keypad.pressedKey = none ↔ ∀ key, keypad.isPressed key = false := by
  refine Keyboard.lowest_eq_none_iff.trans ⟨?_, fun hup key _ => hup key⟩
  intro hup key
  by_cases hkey : key < 16
  · exact hup key hkey
  · exact isPressed_of_le keypad (UInt8.not_lt.mp hkey)

/-! ## The order of operations -/

/-- **Keypads on which the same keys are down are the same.** -/
theorem ext_isPressed {left right : Keypad}
    (hsame : ∀ key < 16, left.isPressed key = right.isPressed key) : left = right := by
  obtain ⟨left⟩ := left
  obtain ⟨right⟩ := right
  congr 1
  apply Vector.ext
  intro number hnumber
  have hkey : (UInt8.ofNat number).toNat = number :=
    UInt8.toNat_ofNat_of_lt (Nat.lt_trans hnumber (by decide))
  have hdown := hsame (UInt8.ofNat number) (UInt8.lt_iff_toNat_lt.mpr (by rw [hkey]; exact hnumber))
  simpa [isPressed, hkey, hnumber] using hdown

/-- **Operations that concern no common key can change places.** -/
theorem perform_comm {first second : Operation}
    (hapart : ∀ key, first.concerns key = true → second.concerns key = false) :
    (keypad.perform first).perform second = (keypad.perform second).perform first := by
  apply ext_isPressed
  intro key hkey
  -- At most one of the two decides over the key.
  simp only [isPressed_perform _ hkey]
  by_cases hfirst : first.concerns key
  · rw [hapart key hfirst, if_neg Bool.false_ne_true, if_pos hfirst, if_pos hfirst]
  · rw [if_neg hfirst, if_neg hfirst]

/-- A press or a release of a number above fifteen changes nothing. -/
theorem perform_of_le {operation : Operation} {key : UInt8} (hkey : operation.key? = some key)
    (habove : 16 ≤ key) : keypad.perform operation = keypad := by
  cases operation with
  | press pressed =>
    cases hkey
    exact press_of_le keypad habove
  | release released =>
    cases hkey
    exact release_of_le keypad habove
  | clear => cases hkey

/-- **The keypad is a set of keys below sixteen.** After any history of operations on a keypad that
begins empty, a key is down exactly if it is below sixteen and the last operation that concerns it
presses it. The key offered is the lowest one that is down, and none if none is. So presses and
releases of different keys can change places on every keypad, and those of numbers above fifteen
change nothing. -/
theorem keypad_is_a_set_of_keys (history : List Operation) :
    let keypad := history.foldl perform .empty
    (∀ key, keypad.isPressed key = true ↔
        key < 16 ∧ (history.filter (Operation.concerns key)).getLast? = some (.press key)) ∧
      (∀ key, keypad.pressedKey = some key ↔
        keypad.isPressed key = true ∧ ∀ lower < key, keypad.isPressed lower = false) ∧
      (keypad.pressedKey = none ↔ ∀ key, keypad.isPressed key = false) ∧
      (∀ (other : Keypad) (first second : Operation) (key different : UInt8),
        first.key? = some key → second.key? = some different → key ≠ different →
        (other.perform first).perform second = (other.perform second).perform first) ∧
      ∀ (other : Keypad) (operation : Operation) (key : UInt8),
        operation.key? = some key → 16 ≤ key → other.perform operation = other := by
  intro keypad
  refine ⟨isPressed_foldl_iff history, fun _ => keypad.pressedKey_eq_some_iff,
    keypad.pressedKey_eq_none_iff, ?_, ?_⟩
  · intro other first second key different hfirst hsecond hne
    apply perform_comm
    intro common hcommon
    refine Bool.eq_false_iff.mpr fun hboth => hne ?_
    rw [Operation.eq_of_concerns hfirst hcommon, Operation.eq_of_concerns hsecond hboth]
  · intro other operation key hkey habove
    exact other.perform_of_le hkey habove

/-- Keys are pressed and released, all are let go in between, and numbers above fifteen are among
them: at the end the keys 3 and F are down, and 3 is offered. -/
theorem keypad_is_a_set_of_keys_pressed_again :
    let history : List Operation :=
      [.press 0x1, .press 0xF, .clear, .press 0xF, .press 0x13, .press 0x3, .release 0xF,
        .release 0x0, .press 0xF, .press 0x2, .release 0x13, .release 0x2]
    let keypad := history.foldl perform .empty
    keypad.isPressed 0xF = true ∧ keypad.isPressed 0x1 = false ∧ keypad.isPressed 0x13 = false ∧
      keypad.pressedKey = some 0x3 ∧
      (keypad.perform (.press 0x4)).perform (.release 0xF) =
        (keypad.perform (.release 0xF)).perform (.press 0x4) ∧
      keypad.perform (.press 0x10) = keypad := by
  intro history keypad
  obtain ⟨hdown, hlowest, -, hcomm, habove⟩ := keypad_is_a_set_of_keys history
  have hup (key : UInt8) (hlast : ¬(key < 16 ∧
      (history.filter (Operation.concerns key)).getLast? = some (.press key))) :
      keypad.isPressed key = false :=
    Bool.eq_false_iff.mpr (mt (hdown key).mp hlast)
  refine ⟨(hdown 0xF).mpr (by decide), hup 0x1 (by decide), hup 0x13 (by decide), ?_,
    hcomm keypad _ _ 0x4 0xF rfl rfl (by decide), habove keypad _ 0x10 rfl (by decide)⟩
  refine (hlowest 0x3).mpr ⟨(hdown 0x3).mpr (by decide), ?_⟩
  intro lower hlower
  apply hup
  have hbelow : ∀ number < 3, ¬((history.filter
      (Operation.concerns (UInt8.ofNat number))).getLast? =
        some (.press (UInt8.ofNat number))) := by
    decide
  rintro ⟨-, hlast⟩
  rw [← UInt8.ofNat_toNat (x := lower)] at hlast
  exact hbelow lower.toNat (UInt8.lt_iff_toNat_lt.mp hlower) hlast

end Chip8.Keypad
