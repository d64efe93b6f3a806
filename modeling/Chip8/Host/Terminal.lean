import Chip8.Host.Session

/-!
# The terminal

How a session is followed and led in a terminal, one line of input for each pass.

* `Event.ofWord`: the event that a word stands for. `+q` puts the key `q` down, `-q` lets it go and
  `quit` closes the window.
* `Pass.ofLine`: the pass for a line of words.
* `Screen.text`: a screen as 32 lines of characters.
-/

namespace Chip8

/-- The event that a word stands for. -/
def Event.ofWord (word : String) : Event :=
  match word.toList with
  | ['+', key] => .keyDown (some key.toNat)
  | ['-', key] => .keyUp (some key.toNat)
  | ['q', 'u', 'i', 't'] => .quit
  | _ => .other

/-- The pass for a line of words. -/
def Pass.ofLine (line : String) (chance : UInt8) : Pass where
  events := (line.trimAscii.toString.splitOn " ").map Event.ofWord
  chance := chance

/-- A screen as lines of characters, a lit pixel as `#` and a dark one as a blank. -/
def Screen.text (screen : Screen) : String :=
  String.intercalate "\n" ((List.range Screen.height).map fun y =>
    String.ofList ((List.range Screen.width).map fun x => if screen.pixel x y then '#' else ' '))

end Chip8
