import Chip8.Host.Device
import Chip8.Host.Event
import Chip8.Host.Log
import Chip8.Host.Options
import Chip8.Machine

/-!
# Sessions

A session is a machine that runs in a window, pass by pass.

* `Session.start`: loads the image, opens the window and shows the first frame.
* `Session.pass`: one pass. The events that are pending go to the keypad; a machine that is not
  halted makes one step; and the screen is shown if it was drawn on or cleared. A halted machine
  keeps its last frame in the window until the run is told to quit.
* `Session.play`: the passes of a script, up to the one that ends the run. After the last pass of
  the script comes a wish to quit.
* `run`: a whole run, and what it leaves to report.

A run ends when it is told to quit, when the program counter has left the program (if the options
ask for that), or when the device refuses a request.
-/

namespace Chip8

/-- A window that a device is asked for. -/
structure Window where
  /-- The words above the window. -/
  title : String := "chipvm"
  /-- The number of points from left to right. -/
  width : Nat
  /-- The number of points from top to bottom. -/
  height : Nat
  deriving DecidableEq

/-- The window for pixels of a size. It is exact for sizes below `2 ^ 26`, for which both products
fit into the 32 bits that they are computed in. -/
def Window.ofScale (scale : UInt32) : Window where
  width := Screen.width * scale.toNat
  height := Screen.height * scale.toNat

/-- The least width that is too high for a window: the binding of SDL2 takes no measure that does
not fit into 31 bits. -/
abbrev Window.widthLimit : Nat := 0x80000000

/-- A screen that was shown, and the number of passes begun by then. -/
structure Frame where
  /-- The number of passes. -/
  pass : Nat
  /-- The screen. -/
  screen : Screen
  deriving DecidableEq

/-- What one pass of a run finds: the events that are pending, and a random byte. -/
structure Pass where
  /-- The events, in their order. -/
  events : List Event
  /-- The random byte. -/
  chance : UInt8 := 0

/-- Why a run ends. -/
inductive Ending
  /-- It is told to quit. -/
  | quit
  /-- The program counter left the program. -/
  | endOfProgram
  /-- The device refuses a request. -/
  | failed (error : HostError)
  deriving DecidableEq

/-- A machine that runs in a window. -/
structure Session where
  /-- The machine. -/
  machine : Machine
  /-- The keys that are down. -/
  keypad : Keypad := .empty
  /-- The number of passes whose events were all handled. -/
  passes : Nat := 0
  /-- The frames shown, in their order. -/
  frames : Array Frame := #[]
  /-- The log, in its order. -/
  log : Array LogEntry := #[]

namespace Session

/-- Adds an entry to the log. -/
def record (session : Session) (entry : LogEntry) : Session :=
  { session with log := session.log.push entry }

/-- Shows a screen, which takes three requests of the device. -/
def present (session : Session) (device : Device) (screen : Screen) : Except HostError Session := do
  let nth := session.frames.size + 1
  device.request .texture nth
  device.request .lock nth
  device.request .copy nth
  return { session with frames := session.frames.push { pass := session.passes, screen } }

/-- Shows the screen of the machine if it was drawn on or cleared since it was last shown. -/
def refresh (session : Session) (device : Device) : Session × Option Ending :=
  match session.machine.takeFrame with
  | (none, _) => (session, none)
  | (some screen, machine) =>
    let session := { session with machine }
    match session.present device screen with
    | .ok session => (session, none)
    | .error error => (session, some (.failed error))

/-- One step of the machine; a fault is recorded. -/
def step (session : Session) (chance : UInt8) : Session :=
  let pc := session.machine.state.pc
  match session.machine.step { keyboard := session.keypad.keyboard, chance } with
  | (.ok (), machine) => { session with machine }
  | (.error fault, machine) =>
    ({ session with machine }.record (.halting pc fault)).record (.machineHalted fault)

/-- Whether the program has run past its end: no key is awaited, and the program counter is outside
the program. -/
def atEnd (session : Session) : Bool :=
  !session.machine.isAwaitingKey && !session.machine.pcInProgram

/-- What a pass does once its events are handled. -/
def advance (session : Session) (options : Options) (device : Device) (chance : UInt8) :
    Session × Option Ending :=
  if session.machine.isHalted then
    session.refresh device
  else
    let session := session.step chance
    if options.exitAtEnd && session.atEnd then
      (session.record (.endOfProgram session.machine.state.pc), some .endOfProgram)
    else
      session.refresh device

/-- One pass: the session after it, and the reason if the run ends with it. -/
def pass (session : Session) (options : Options) (device : Device) (pass : Pass) :
    Session × Option Ending :=
  match session.keypad.afterAll? pass.events with
  | none => (session, some .quit)
  | some keypad =>
    { session with keypad, passes := session.passes + 1 }.advance options device pass.chance

/-- The passes of a script, up to the one that ends the run. -/
def play (options : Options) (device : Device) :
    Session → List Pass → Session × Ending
  | session, [] => (session, .quit)
  | session, next :: rest =>
    match session.pass options device next with
    | (session, none) => play options device session rest
    | (session, some ending) => (session, ending)

/-- What is recorded of a halted machine when a run ends otherwise than by a refusal. -/
def close (session : Session) : Session :=
  match session.machine.halted with
  | some fault => session.record (.exitedHalted fault)
  | none => session

end Session

/-- A window that did not open. -/
structure Unopened where
  /-- The window that the device was asked for, if it came to that. -/
  window : Option Window
  /-- Why it did not open. -/
  error : HostError
  deriving DecidableEq

/-- Makes the device ready, up to the events of the open window. -/
def openWindow (device : Device) (scale : UInt32) : Except Unopened Window := do
  let window := Window.ofScale scale
  (do
    device.request .init 1
    device.request .video 1).mapError (Unopened.mk none)
  if Window.widthLimit ≤ window.width then
    throw { window := none, error := .tooWide window.width }
  (do
    device.request .window 1
    device.request .renderer 1
    device.request .events 1).mapError (Unopened.mk (some window))
  return window

/-- What a run leaves to report. -/
structure Report where
  /-- Whether the run ended as it should. -/
  result : Except HostError Unit
  /-- The window that the device was asked for. -/
  window : Option Window := none
  /-- The number of passes whose events were all handled. -/
  passes : Nat := 0
  /-- The frames shown, in their order. -/
  frames : Array Frame := #[]
  /-- The log, in its order. -/
  log : Array LogEntry := #[]

/-- The report of a session that has ended. -/
def Session.report (session : Session) (window : Window) : Ending → Report
  | .failed error =>
    { result := .error error, window := some window, passes := session.passes,
      frames := session.frames, log := session.log }
  | .quit | .endOfProgram =>
    { result := .ok (), window := some window, passes := session.passes,
      frames := session.frames, log := session.close.log }

/-- Loads the image, opens the window and shows the first frame. When one of these fails, the report
of the run that did not begin. -/
def Session.start (image : List UInt8) (options : Options) (device : Device) :
    Except Report (Window × Session) :=
  match Machine.load image with
  | .error fault => .error { result := .error (.program fault) }
  | .ok machine =>
    match openWindow device options.scale with
    | .error unopened =>
      .error { result := .error unopened.error, window := unopened.window }
    | .ok window =>
      match Session.present { machine } device machine.state.screen with
      | .error error => .error { result := .error error, window := some window }
      | .ok session => .ok (window, session)

/-- A whole run of an image, and what it leaves to report. -/
def run (image : List UInt8) (options : Options) (device : Device) (script : List Pass) : Report :=
  match Session.start image options device with
  | .error report => report
  | .ok (window, session) =>
    let (session, ending) := session.play options device script
    session.report window ending

end Chip8
