/-!
# Program images

A program comes from a file, byte for byte. Its size is judged when a machine is loaded with it.

* `ImageError`: why there is no image.
* `Image.load`: the image in the file of a name.
-/

namespace Chip8

/-- Why there is no image. -/
inductive ImageError
  /-- The file of this name cannot be read. -/
  | unreadable (name : String)
  deriving DecidableEq

/-- The sentence that reports a missing image. -/
def ImageError.message : ImageError → String
  | .unreadable name => s!"unable to read {name}"

/-- The image in the file `name`, where `contents` is what can be read of that file. -/
def Image.load (name : String) (contents : Option (List UInt8)) :
    Except ImageError (List UInt8) :=
  match contents with
  | some image => .ok image
  | none => .error (.unreadable name)

end Chip8
