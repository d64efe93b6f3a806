import Chip8.Host.Options

/-!
# The command line

    [--hz <number>] [--scale <number>] [--exit-at-end] <rom>

* `Settings`: what a command line asks for.
* `Stop`: why reading it ends without settings: a mistake, or a wish for help or the version.
* `Token.ofText`: what kind of argument a text is.
* `CommandLine.parse`: the settings of a list of arguments.

Arguments are read from left to right. The last option with a value, or the last operand, stays
*open*: it is checked and kept only when another argument is accepted, or at the end. So an argument
that cannot be accepted at all is reported before a mistake in the open one.
-/

namespace Chip8

/-- What a command line asks for. -/
structure Settings where
  /-- The file that holds the program. -/
  rom : String
  /-- How it is hosted. -/
  options : Options := {}
  deriving DecidableEq

/-- An option that takes a number. -/
inductive NumberOption
  | hz
  | scale
  deriving DecidableEq

/-- The name that an option is given by. -/
def NumberOption.name : NumberOption → String
  | .hz => "hz"
  | .scale => "scale"

/-- Why reading the command line ends without settings. -/
inductive Stop
  /-- No file is named. -/
  | missingRom
  /-- The name of the file is empty. -/
  | emptyRom
  /-- An argument is neither an option nor awaited as a file. -/
  | unknownArgument (text : String)
  /-- An option's value is missing. -/
  | missingValue (option : NumberOption)
  /-- An option's value is no number that it admits. -/
  | invalidNumber (option : NumberOption) (text : String)
  /-- An option that takes no value is given one. -/
  | unwantedValue (name : String)
  /-- An option is given twice. -/
  | repeated (name : String)
  /-- Help is asked for. -/
  | help
  /-- The version is asked for. -/
  | version
  deriving DecidableEq

/-- Whether the command line was wrong, rather than a wish for information. -/
def Stop.isMistake : Stop → Bool
  | .help | .version => false
  | _ => true

/-- What the user is told when reading the command line ends without settings. -/
def Stop.message : Stop → String
  | .missingRom => "no rom is given"
  | .emptyRom => "the name of the rom is empty"
  | .unknownArgument text => s!"unexpected argument {text}"
  | .missingValue option => s!"no value is given for --{option.name}"
  | .invalidNumber option text => s!"invalid value {text} for --{option.name}"
  | .unwantedValue name => s!"--{name} takes no value"
  | .repeated name => s!"--{name} is given twice"
  | .help => "usage: chip8 [--hz <number>] [--scale <number>] [--exit-at-end] <rom>"
  | .version => "chip8 0.1.0"

/-- What kind of argument a text is. -/
inductive Token
  /-- The mark after which there are no more options. -/
  | endOfOptions
  /-- An option by its name, and the value attached to it. -/
  | long (name : String) (value : Option String)
  /-- An option by a letter. -/
  | short (letter : Char)
  /-- Anything else: a value or an operand. -/
  | plain (text : String)
  deriving DecidableEq

/-- The kind of an argument before the end of options. A lone `-` is no option. -/
def Token.ofText (text : String) : Token :=
  match text.toList with
  | ['-', '-'] => .endOfOptions
  | '-' :: '-' :: rest =>
    .long (String.ofList (rest.takeWhile (· != '=')))
      (match rest.dropWhile (· != '=') with
      | [] => none
      | _ :: value => some (String.ofList value))
  | '-' :: letter :: _ => .short letter
  | _ => .plain text

/-! ## Numbers -/

/-- The value of a list of decimal digits; none of the empty list, nor of other characters. -/
def naturalOf? (digits : List Char) : Option Nat :=
  if digits ≠ [] ∧ digits.all Char.isDigit then
    some (Nat.ofDigitChars 10 digits 0)
  else
    none

/-- The value of decimal digits behind an optional sign. -/
def integerOf? : List Char → Option Int
  | '+' :: digits => (naturalOf? digits).map Int.ofNat
  | '-' :: digits => (naturalOf? digits).map fun n => -(n : Int)
  | digits => (naturalOf? digits).map Int.ofNat

/-- The number that an option's value stands for: an integer from 0 to 4294967295. -/
def numberOf? (text : String) : Option UInt32 :=
  match integerOf? text.toList with
  | some value => if 0 ≤ value ∧ value < 4294967296 then some (UInt32.ofNat value.toNat) else none
  | none => none

namespace CommandLine

/-- The argument that is not yet checked. -/
inductive Open
  /-- There is none. -/
  | nothing
  /-- An option, and its value once it is given. -/
  | number (option : NumberOption) (value : Option String)
  /-- The file. -/
  | rom (name : String)
  deriving DecidableEq

/-- What has been read of a command line. -/
structure Progress where
  /-- The value kept for `--hz`. -/
  hz : Option UInt32 := none
  /-- The value kept for `--scale`. -/
  scale : Option UInt32 := none
  /-- Whether `--exit-at-end` was given. -/
  exitAtEnd : Bool := false
  /-- The file kept. -/
  rom : Option String := none
  /-- The argument that is not yet checked. -/
  opened : Open := .nothing
  /-- Whether the end of options was passed. -/
  operandsOnly : Bool := false

namespace Progress

/-- The value kept for an option. -/
def kept (progress : Progress) : NumberOption → Option UInt32
  | .hz => progress.hz
  | .scale => progress.scale

/-- Keeps a value for an option. -/
def keep (progress : Progress) (option : NumberOption) (value : UInt32) : Progress :=
  match option with
  | .hz => { progress with hz := some value }
  | .scale => { progress with scale := some value }

/-- Checks a value of an option and keeps it. -/
def accept (progress : Progress) (option : NumberOption) (text : String) :
    Except Stop Progress :=
  if (progress.kept option).isSome then
    .error (.repeated option.name)
  else
    match numberOf? text with
    | some value => .ok (progress.keep option value)
    | none => .error (.invalidNumber option text)

/-- Checks the open argument and keeps it; afterwards none is open. -/
def close (progress : Progress) : Except Stop Progress :=
  let closed := { progress with opened := .nothing }
  match progress.opened with
  | .nothing => .ok closed
  | .number option none => .error (.missingValue option)
  | .number option (some text) => closed.accept option text
  | .rom name => if name = "" then .error .emptyRom else .ok { closed with rom := some name }

/-- Whether a file was given, checked or not. -/
def hasRom (progress : Progress) : Bool :=
  progress.rom.isSome || progress.opened matches .rom _

/-- Reads an operand: the file, if none was given yet. -/
def readOperand (progress : Progress) (text : String) : Except Stop Progress :=
  if progress.hasRom then
    .error (.unknownArgument text)
  else
    progress.close.map fun closed => { closed with opened := .rom text }

/-- Reads an option that takes a number, with the value attached to it. -/
def readNumber (progress : Progress) (option : NumberOption) (value : Option String) :
    Except Stop Progress := do
  let closed ← progress.close
  match value with
  | some text => closed.accept option text
  | none => return { closed with opened := .number option none }

/-- Reads a text that is no option: the value of an option that waits for it, or an operand. -/
def readPlain (progress : Progress) (text : String) : Except Stop Progress :=
  match progress.opened with
  | .number option none => .ok { progress with opened := .number option (some text) }
  | _ => progress.readOperand text

/-- Reads an option by its name. -/
def readLong (progress : Progress) (name : String) (value : Option String) :
    Except Stop Progress :=
  match name, value with
  | "hz", _ => progress.readNumber .hz value
  | "scale", _ => progress.readNumber .scale value
  | "exit-at-end", none => do
    let closed ← progress.close
    if closed.exitAtEnd then .error (.repeated name) else .ok { closed with exitAtEnd := true }
  | "help", none => do
    let _ ← progress.close
    .error .help
  | "version", none => do
    let _ ← progress.close
    .error .version
  | "exit-at-end", some _ | "help", some _ | "version", some _ => .error (.unwantedValue name)
  | _, _ => .error (.unknownArgument ("--" ++ name))

/-- Reads an option by its letter. -/
def readShort (progress : Progress) (letter : Char) : Except Stop Progress :=
  match letter with
  | 'h' => do
    let _ ← progress.close
    .error .help
  | 'V' => do
    let _ ← progress.close
    .error .version
  | _ => .error (.unknownArgument (String.ofList ['-', letter]))

/-- Reads one argument. -/
def read (progress : Progress) (text : String) : Except Stop Progress :=
  if progress.operandsOnly then
    progress.readOperand text
  else
    match Token.ofText text with
    | .endOfOptions => .ok { progress with operandsOnly := true }
    | .long name value => progress.readLong name value
    | .short letter => progress.readShort letter
    | .plain text => progress.readPlain text

/-- The settings at the end of the command line. -/
def finish (progress : Progress) : Except Stop Settings := do
  let closed ← progress.close
  match closed.rom with
  | none => .error .missingRom
  | some rom =>
    let standard : Options := {}
    return {
      rom
      options := {
        hz := closed.hz.getD standard.hz
        scale := closed.scale.getD standard.scale
        exitAtEnd := closed.exitAtEnd } }

end Progress

/-- The settings that a list of arguments asks for. -/
def parse (arguments : List String) : Except Stop Settings := do
  let progress ← arguments.foldlM Progress.read {}
  progress.finish

end CommandLine

end Chip8
