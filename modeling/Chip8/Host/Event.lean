import Chip8.Host.Layout
import Chip8.Keypad

/-!
# Events

What a host learns of its window between two steps.

* `Event`: a wish to quit, a key that goes down or up, or something of no interest.
* `Event.quits`: the events that end a run. `quits_iff` names them: the wish to quit, and the Escape
  key going down.
* `Keypad.after`: the keypad after an event.
* `Keypad.afterAll?`: the keypad after a list of events, unless one of them ends the run.
-/

namespace Chip8

/-- What a host learns of its window. -/
inductive Event
  /-- The window is to be closed. -/
  | quit
  /-- A key goes down, or repeats; not every key has a code. -/
  | keyDown (code : Option Int)
  /-- A key goes up. -/
  | keyUp (code : Option Int)
  /-- Anything else. -/
  | other
  deriving DecidableEq

/-- The code of the Escape key, by the numbers that SDL2 gives to keys. -/
def Event.escape : Int := 27

/-- Whether an event ends the run. -/
def Event.quits : Event → Bool
  | .quit => true
  | .keyDown code => code == some escape
  | .keyUp _ | .other => false

/-- A run is ended by the wish to quit and by the Escape key going down, and by nothing else. -/
theorem Event.quits_iff {event : Event} :
    event.quits = true ↔ event = .quit ∨ event = .keyDown (some 27) := by
  cases event with
  | quit => simp [quits]
  | keyDown code => simp [quits, escape]
  | keyUp code => simp [quits]
  | other => simp [quits]

/-- The keypad after an event that does not end the run; keys without a place in the layout do not
count. -/
def Keypad.after (keypad : Keypad) : Event → Keypad
  | .keyDown code =>
    match code.bind Layout.key? with
    | some key => keypad.press key
    | none => keypad
  | .keyUp code =>
    match code.bind Layout.key? with
    | some key => keypad.release key
    | none => keypad
  | .quit | .other => keypad

/-- The keypad after events in their order, or none as soon as one of them ends the run. -/
def Keypad.afterAll? (keypad : Keypad) : List Event → Option Keypad
  | [] => some keypad
  | event :: rest => if event.quits then none else (keypad.after event).afterAll? rest

/-- Events end the run exactly when one of them does. -/
theorem Keypad.afterAll?_eq (keypad : Keypad) (events : List Event) :
    keypad.afterAll? events =
      if events.any Event.quits then none else some (events.foldl Keypad.after keypad) := by
  induction events generalizing keypad with
  | nil => rfl
  | cons event rest ih =>
    rw [Keypad.afterAll?, List.any_cons, List.foldl_cons]
    by_cases h : event.quits
    · rw [if_pos h, h, Bool.true_or, if_pos rfl]
    · rw [if_neg h, ih, Bool.not_eq_true _ |>.mp h, Bool.false_or]

end Chip8
