import Chip8.Fault

/-!
# The windowing device

What a host asks of the device that shows its window, and how a refusal is reported.

* `Stage`: the requests, in the order in which a run makes them.
* `Device`: which requests are refused, and with what words.
* `DisplayError`, `HostError`: why a run ends early, with its message.
* `Stage.refusal`: the error that a refused request amounts to.

The device is SDL2 behind its binding. Two texts and a limit are the binding's own and are written
out as it has them: what it puts before the words of some refusals (`Stage.refusal`), how it reports
a window that is too wide (`HostError.tooWide`), and from which width on (`Window.widthLimit`).
-/

namespace Chip8

/-- What a host asks of its device: the first five once each, and then the last three for every
frame that it shows. -/
inductive Stage
  /-- To start. -/
  | init
  /-- To provide a screen. -/
  | video
  /-- To open a window. -/
  | window
  /-- To draw into the window. -/
  | renderer
  /-- To deliver events. -/
  | events
  /-- To provide a texture. -/
  | texture
  /-- To lend the memory of a texture. -/
  | lock
  /-- To copy a texture into the window. -/
  | copy
  deriving DecidableEq

/-- A device, as far as a run depends on it: the words with which it refuses the `nth` request of a
stage, counted from one, if it does. -/
structure Device where
  /-- The words of a refusal. -/
  refusal? : Stage → Nat → Option String

/-- The device that refuses nothing. -/
def Device.reliable : Device where
  refusal? _ _ := none

/-- The device that refuses one request. -/
def Device.refusing (stage : Stage) (nth : Nat) (words : String) : Device where
  refusal? stage' nth' := if stage' = stage ∧ nth' = nth then some words else none

/-- Why a display does not work. -/
inductive DisplayError
  /-- There is no window. -/
  | window (detail : String)
  /-- A frame is not shown. -/
  | render (detail : String)
  deriving DecidableEq

/-- The sentence that reports a display that does not work. -/
def DisplayError.message : DisplayError → String
  | .window detail => s!"unable to open a window: {detail}"
  | .render detail => s!"unable to render a frame: {detail}"

/-- Why a run ends early. -/
inductive HostError
  /-- The image is rejected. -/
  | program (fault : Fault)
  /-- The device does not work. -/
  | device (words : String)
  /-- The display does not work. -/
  | display (error : DisplayError)
  deriving DecidableEq

/-- The sentence that reports why a run ended early. -/
def HostError.message : HostError → String
  | .program fault => fault.message
  | .device words => words
  | .display error => error.message

/-- The error that a refused request amounts to. The binding of SDL2 reports what it refuses to a
window, to a renderer or to a texture as `SDL error:` and the words of SDL2, and hands on the other
words as they are. -/
def Stage.refusal (stage : Stage) (words : String) : HostError :=
  match stage with
  | .init | .events => .device words
  | .video => .display (.window words)
  | .window | .renderer => .display (.window ("SDL error: " ++ words))
  | .texture => .display (.render ("SDL error: " ++ words))
  | .lock | .copy => .display (.render words)

/-- The error for a window that no device can be asked for, in the words of the binding of SDL2. -/
def HostError.tooWide (width : Nat) : HostError :=
  .display (.window s!"Window width ({width}) is too high.")

/-- Makes the `nth` request of a stage. -/
def Device.request (device : Device) (stage : Stage) (nth : Nat) : Except HostError Unit :=
  match device.refusal? stage nth with
  | some words => .error (stage.refusal words)
  | none => .ok ()

/-- A reliable device grants every request. -/
@[simp] theorem Device.request_reliable (stage : Stage) (nth : Nat) :
    Device.reliable.request stage nth = .ok () := rfl

end Chip8
