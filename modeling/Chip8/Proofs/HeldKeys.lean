import Chip8.Proofs.Keys
import Chip8.Proofs.Truncation

/-!
# The keys that are held down

A host hears of key codes going down and up, in any order and as often as it pleases.

* `Layout.exists_code_iff`, `Layout.code_inj`: every key of the keypad has its place, and no two
  places are for the same key.
* `Event.isOf`, `Event.holds`, `Event.Held`: the events of a key code, whether the last one of them
  is that it goes down, and whether this is so for the code in the place of a key.
* `isPressed_after`, `isPressed_foldl_after`: an event changes the key in the place of its code and
  no other, so that the last event of that code decides.
* `Session.keypad_of_afterAll?`: the keypad of a session has heard the events of all its passes.
* `held_keys_follow_the_last_events`: all of this for the events of a whole run.
-/

namespace Chip8

/-! ## Places -/

namespace Layout

/-- The code of a place is found. -/
theorem key?_of_mem {place : Char × UInt8} (hplace : place ∈ table) :
    key? place.1.toNat = some place.2 := by
  have hall : ∀ place ∈ table, key? place.1.toNat = some place.2 := by decide
  exact hall place hplace

/-- A key is found exactly by the code of its place. -/
theorem key?_eq_some_iff {code : Int} {key : UInt8} :
    key? code = some key ↔ ∃ place ∈ table, (place.1.toNat : Int) = code ∧ place.2 = key := by
  constructor
  · intro h
    obtain ⟨place, hfind, hkey⟩ := Option.map_eq_some_iff.mp h
    have hplace := List.find?_some hfind
    exact ⟨place, List.mem_of_find?_eq_some hfind, beq_iff_eq.mp hplace, hkey⟩
  · rintro ⟨place, hplace, rfl, rfl⟩
    exact key?_of_mem hplace

/-- **Different codes are for different keys.** -/
theorem code_inj {code other : Int} {key : UInt8} (hcode : key? code = some key)
    (hother : key? other = some key) : code = other := by
  have hplaces : ∀ place ∈ table, ∀ another ∈ table, place.2 = another.2 → place = another := by
    decide
  obtain ⟨place, hplace, rfl, rfl⟩ := key?_eq_some_iff.mp hcode
  obtain ⟨another, hanother, rfl, hsame⟩ := key?_eq_some_iff.mp hother
  rw [hplaces place hplace another hanother hsame.symm]

/-- So a key has been hit only if the code of its place was. -/
theorem bind_key?_eq_some_iff {code : Int} {key : UInt8} (hcode : key? code = some key)
    {hit : Option Int} : hit.bind key? = some key ↔ hit = some code := by
  constructor
  · intro h
    obtain ⟨other, rfl, hother⟩ := Option.bind_eq_some_iff.mp h
    rw [code_inj hother hcode]
  · rintro rfl
    exact hcode

/-- The places are for the sixteen keys. -/
theorem exists_code_iff {key : UInt8} : (∃ code, key? code = some key) ↔ key < 16 := by
  have hbelow : ∀ place ∈ table, place.2 < 16 := by decide
  have hall : ∀ number : Fin 16, ∃ place ∈ table, place.2 = UInt8.ofNat number.val := by decide
  constructor
  · rintro ⟨code, hcode⟩
    obtain ⟨place, hplace, -, rfl⟩ := key?_eq_some_iff.mp hcode
    exact hbelow place hplace
  · intro hkey
    obtain ⟨place, hplace, hnumber⟩ := hall ⟨key.toNat, UInt8.lt_iff_toNat_lt.mp hkey⟩
    refine ⟨place.1.toNat, key?_eq_some_iff.mpr ⟨place, hplace, rfl, ?_⟩⟩
    rw [hnumber, UInt8.ofNat_toNat]

end Layout

/-! ## Events -/

namespace Event

/-- Whether a key code goes down or up in an event. -/
def isOf (code : Int) : Event → Bool
  | .keyDown hit | .keyUp hit => hit == some code
  | .quit | .other => false

/-- Whether the last event of a key code is that it goes down. -/
def holds (events : List Event) (code : Int) : Bool :=
  (events.filter (isOf code)).getLast? == some (.keyDown (some code))

/-- A key of the keypad is held after events: the code in its place went down and not up again. -/
def Held (events : List Event) (key : UInt8) : Prop :=
  ∃ code, Layout.key? code = some key ∧ holds events code = true

/-- One more event decides over its own code, and over no other. -/
theorem holds_concat (events : List Event) (event : Event) (code : Int) :
    holds (events ++ [event]) code =
      if event.isOf code then event == .keyDown (some code) else holds events code := by
  unfold holds
  rw [List.filter_append]
  by_cases hof : event.isOf code
  · rw [List.filter_cons_of_pos hof, List.filter_nil, List.getLast?_concat, if_pos hof]
    rfl
  · rw [List.filter_cons_of_neg hof, List.filter_nil, List.append_nil, if_neg hof]

end Event

namespace Keypad

variable (keypad : Keypad) {code : Int} {key : UInt8}

/-- A key code that goes down presses the key in its place, and only that. -/
theorem isPressed_after_keyDown (hcode : Layout.key? code = some key) (hit : Option Int) :
    (keypad.after (.keyDown hit)).isPressed key =
      if hit = some code then true else keypad.isPressed key := by
  have hkey : key < 16 := Layout.exists_code_iff.mp ⟨code, hcode⟩
  simp only [← Layout.bind_key?_eq_some_iff hcode, after]
  cases hit.bind Layout.key? with
  | none => rfl
  | some pressed => simp only [isPressed_press, hkey, and_true, Option.some.injEq, eq_comm]

/-- A key code that goes up releases the key in its place, and only that. -/
theorem isPressed_after_keyUp (hcode : Layout.key? code = some key) (hit : Option Int) :
    (keypad.after (.keyUp hit)).isPressed key =
      if hit = some code then false else keypad.isPressed key := by
  simp only [← Layout.bind_key?_eq_some_iff hcode, after]
  cases hit.bind Layout.key? with
  | none => rfl
  | some released => simp only [isPressed_release, Option.some.injEq, eq_comm]

/-- **An event decides over the key in the place of its code**, and over no other. -/
theorem isPressed_after (hcode : Layout.key? code = some key) (event : Event) :
    (keypad.after event).isPressed key =
      if event.isOf code then event == .keyDown (some code) else keypad.isPressed key := by
  cases event with
  | quit => rfl
  | other => rfl
  | keyDown hit =>
    rw [isPressed_after_keyDown keypad hcode]
    by_cases hsame : hit = some code
    · simp [Event.isOf, hsame]
    · simp [Event.isOf, hsame]
  | keyUp hit =>
    rw [isPressed_after_keyUp keypad hcode]
    by_cases hsame : hit = some code
    · simp [Event.isOf, hsame]
    · simp [Event.isOf, hsame]

/-- An event of a code that no key has leaves the keypad alone. -/
theorem after_of_no_key {event : Event}
    (hnone : ∀ code, event.isOf code = true → Layout.key? code = none) :
    keypad.after event = keypad := by
  cases event with
  | quit => rfl
  | other => rfl
  | keyDown hit =>
    cases hit with
    | none => rfl
    | some code => simp [after, hnone code (beq_self_eq_true _)]
  | keyUp hit =>
    cases hit with
    | none => rfl
    | some code => simp [after, hnone code (beq_self_eq_true _)]

/-- **The last event of its code decides over a key.** -/
theorem isPressed_foldl_after (hcode : Layout.key? code = some key) (events : List Event) :
    (events.foldl after .empty).isPressed key = Event.holds events code := by
  induction events using List.reverseRecOn with
  | nil => exact isPressed_empty key
  | append_singleton events event ih =>
    rw [List.foldl_concat, isPressed_after _ hcode, Event.holds_concat, ih]

/-- A key is down exactly if it is held after the events. -/
theorem isPressed_iff_held (events : List Event) (key : UInt8) :
    (events.foldl after .empty).isPressed key = true ↔ Event.Held events key := by
  constructor
  · intro hdown
    by_cases hkey : key < 16
    · obtain ⟨code, hcode⟩ := Layout.exists_code_iff.mpr hkey
      exact ⟨code, hcode, (isPressed_foldl_after hcode events).symm.trans hdown⟩
    · rw [isPressed_of_le _ (UInt8.not_lt.mp hkey)] at hdown
      cases hdown
  · rintro ⟨code, hcode, hholds⟩
    exact (isPressed_foldl_after hcode events).trans hholds

/-- The lowest key held is the one that ends a wait. -/
theorem pressedKey_eq_some_iff_held (events : List Event) (key : UInt8) :
    (events.foldl after .empty).pressedKey = some key ↔
      Event.Held events key ∧ ∀ lower < key, ¬Event.Held events lower := by
  refine Keyboard.lowest_eq_some_iff.trans ?_
  simp only [← Bool.not_eq_true, isPressed_iff_held]
  refine and_iff_right_of_imp ?_
  rintro ⟨⟨code, hcode, -⟩, -⟩
  exact Layout.exists_code_iff.mp ⟨code, hcode⟩

/-- While no key is held a wait goes on. -/
theorem pressedKey_eq_none_iff_held (events : List Event) :
    (events.foldl after .empty).pressedKey = none ↔ ∀ key, ¬Event.Held events key := by
  refine Keyboard.lowest_eq_none_iff.trans ?_
  simp only [← Bool.not_eq_true, isPressed_iff_held]
  refine forall_congr' fun key => ⟨?_, fun hup _ => hup⟩
  rintro hup ⟨code, hcode, hholds⟩
  exact hup (Layout.exists_code_iff.mp ⟨code, hcode⟩) ⟨code, hcode, hholds⟩

end Keypad

namespace Session

variable {options : Options} {device : Device}

/-! ## Passes -/

/-- Showing the screen, or failing to, leaves the keypad alone. -/
theorem keypad_refresh (session : Session) (device : Device) :
    (session.refresh device).1.keypad = session.keypad := by
  unfold refresh
  rcases session.machine.takeFrame with ⟨_ | screen, machine⟩
  · rfl
  · dsimp only
    rcases present_cases { session with machine } device screen with h | ⟨error, h⟩
    · rw [h, present_reliable]
    · rw [h]

/-- So does what a pass does once its events are handled. -/
theorem keypad_advance (session : Session) (options : Options) (device : Device) (chance : UInt8) :
    (session.advance options device chance).1.keypad = session.keypad := by
  have hstep : (session.step chance).keypad = session.keypad := by
    rw [step_eq]
  unfold advance
  split_ifs
  · exact keypad_refresh session device
  · dsimp only
    split_ifs
    · exact hstep
    · exact (keypad_refresh _ device).trans hstep

/-- Passes that do not end the run leave a keypad that has heard all their events. -/
theorem keypad_of_afterAll? {session after : Session} {passes : List Pass}
    (hpasses : session.afterAll? options device passes = some after) :
    after.keypad = (passes.flatMap Pass.events).foldl Keypad.after session.keypad := by
  induction passes generalizing session with
  | nil =>
    cases hpasses
    rfl
  | cons next rest ih =>
    rw [afterAll?] at hpasses
    rcases hpass : session.pass options device next with ⟨middle, _ | ending⟩
    · rw [hpass] at hpasses
      cases hquits : next.quits with
      | true =>
        rw [pass_of_quits session hquits] at hpass
        cases hpass
      | false =>
        have hmiddle : middle.keypad = next.events.foldl Keypad.after session.keypad := by
          rw [pass_of_not_quits session hquits] at hpass
          rw [← congrArg (fun result => result.1.keypad) hpass, keypad_advance]
        rw [ih hpasses, hmiddle, List.flatMap_cons, List.foldl_append]
    · rw [hpass] at hpasses
      cases hpasses

/-- No key is down when a run begins. -/
theorem keypad_start {image : List UInt8} {window : Window} {opened : Session}
    (hstart : Session.start image options device = .ok (window, opened)) :
    opened.keypad = .empty := by
  unfold Session.start at hstart
  rcases hload : Machine.load image with fault | machine
  · rw [hload] at hstart
    cases hstart
  · rw [hload] at hstart
    dsimp only at hstart
    rcases hopen : openWindow device options.scale with unopened | size
    · rw [hopen] at hstart
      cases hstart
    · rw [hopen] at hstart
      dsimp only at hstart
      rcases present_cases { machine } device machine.state.screen with h | ⟨error, h⟩
      · rw [h, present_reliable] at hstart
        cases hstart
        rfl
      · rw [h] at hstart
        cases hstart

end Session

/-- **Held keys follow the last events.** Let events come none of which ends a run. Every key of the
keypad has exactly one code for its place, and the key is down afterwards exactly if this code went
down or up at all and last went down. An event of any other code leaves the key as it is, and an
event of a code that has no place leaves the whole keypad. The key offered to the machine is the
lowest one held, and none if none is. And this is the keypad of a session that went through the
passes in which these events came, whatever it runs and whatever its device refuses. -/
theorem held_keys_follow_the_last_events (events : List Event)
    (hgoesOn : ∀ event ∈ events, event.quits = false) :
    ∃ keypad, Keypad.empty.afterAll? events = some keypad ∧
      (∀ key < 16, ∃ code, (∀ other, Layout.key? other = some key ↔ other = code) ∧
        (keypad.isPressed key = true ↔ Event.holds events code = true)) ∧
      (∀ key code event, Layout.key? code = some key → event.isOf code = false →
        (keypad.after event).isPressed key = keypad.isPressed key) ∧
      (∀ event, (∀ code, event.isOf code = true → Layout.key? code = none) →
        keypad.after event = keypad) ∧
      (∀ key, keypad.pressedKey = some key ↔
        Event.Held events key ∧ ∀ lower < key, ¬Event.Held events lower) ∧
      (keypad.pressedKey = none ↔ ∀ key, ¬Event.Held events key) ∧
      ∀ image options device script window opened session,
        Session.start image options device = .ok (window, opened) →
        opened.afterAll? options device script = some session →
        script.flatMap Pass.events = events → session.keypad = keypad := by
  have hnone : events.any Event.quits = false :=
    List.any_eq_false.mpr fun event hmem => Bool.eq_false_iff.mp (hgoesOn event hmem)
  have hheld := Keypad.isPressed_iff_held events
  refine ⟨events.foldl Keypad.after .empty, ?_, ?_, ?_, ?_, ?_, ?_, ?_⟩
  · rw [Keypad.afterAll?_eq, hnone]
    rfl
  · intro key hkey
    obtain ⟨code, hcode⟩ := Layout.exists_code_iff.mpr hkey
    refine ⟨code, ?_, ?_⟩
    · intro other
      refine ⟨fun hother => Layout.code_inj hother hcode, ?_⟩
      rintro rfl
      exact hcode
    · rw [Keypad.isPressed_foldl_after hcode]
  · intro key code event hcode hother
    rw [Keypad.isPressed_after _ hcode, hother, if_neg Bool.false_ne_true]
  · intro event hplace
    exact Keypad.after_of_no_key _ hplace
  · exact Keypad.pressedKey_eq_some_iff_held events
  · exact Keypad.pressedKey_eq_none_iff_held events
  · rintro image options device script window opened session hstart hpasses rfl
    rw [Session.keypad_of_afterAll? hpasses, Session.keypad_start hstart]

/-- The keys X and 1 go down, X repeats and goes up, Z goes up that was not down, and a key without
a code goes down, in two passes of a run: afterwards the keypad's key 1 is down and is offered, and
its key 0, in the place of X, is not. -/
theorem held_keys_follow_the_last_events_repeated :
    let x := some ('x'.toNat : Int)
    let first : Pass := { events := [.keyDown x, .keyDown (some '1'.toNat), .keyDown x] }
    let second : Pass := { events := [.keyUp x, .keyUp (some 'z'.toNat), .keyDown none] }
    let opened := Session.opened (Machine.ofImage [0x12, 0x00])
    ∃ session, opened.afterAll? {} .reliable [first, second] = some session ∧
      session.keypad.isPressed 1 = true ∧ session.keypad.isPressed 0 = false ∧
      session.keypad.pressedKey = some 1 := by
  intro x first second opened
  have hstart : Session.start [0x12, 0x00] {} .reliable = .ok (Window.ofScale 10, opened) :=
    start_reliable (Machine.load_eq_ok_iff.mpr ⟨by decide, by decide, rfl⟩) (by decide)
  have hpasses : (opened.afterAll? {} .reliable [first, second]).isSome = true := by
    decide +kernel
  obtain ⟨session, hsession⟩ := Option.isSome_iff_exists.mp hpasses
  obtain ⟨keypad, -, hkeys, -, -, hlowest, -, hrun⟩ :=
    held_keys_follow_the_last_events ([first, second].flatMap Pass.events) (by decide)
  obtain rfl : session.keypad = keypad := hrun _ _ _ _ _ _ _ hstart hsession rfl
  obtain ⟨one, hone, hdown⟩ := hkeys 1 (by decide)
  obtain rfl := (hone '1'.toNat).mp rfl
  obtain ⟨zero, hzero, hup⟩ := hkeys 0 (by decide)
  obtain rfl := (hzero 'x'.toNat).mp rfl
  refine ⟨session, hsession, hdown.mpr (by decide), ?_, (hlowest 1).mpr ⟨?_, ?_⟩⟩
  · exact Bool.eq_false_iff.mpr fun h => absurd (hup.mp h) (by decide)
  · exact ⟨'1'.toNat, rfl, by decide⟩
  · rintro lower hlower ⟨code, hcode, hholds⟩
    obtain rfl : lower = 0 := UInt8.lt_one_iff.mp hlower
    obtain rfl := (hzero code).mp hcode
    exact absurd hholds (by decide)

end Chip8
