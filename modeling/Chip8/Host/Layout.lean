/-!
# The keyboard layout

The keypad is played on the left four columns of the keyboard's letters and digits:

    1 2 3 C        1 2 3 4
    4 5 6 D   on   Q W E R
    7 8 9 E        A S D F
    A 0 B F        Z X C V

* `Layout.table`: every key of the keypad with the character of its place.
* `Layout.key?`: the keypad's key for a key code, which is a number that SDL2 gives to a key. That
  of a letter or digit is the code of its lower-case character.
-/

namespace Chip8.Layout

/-- The places of the keypad's keys. -/
def table : List (Char × UInt8) :=
  [('1', 0x1), ('2', 0x2), ('3', 0x3), ('4', 0xC),
   ('q', 0x4), ('w', 0x5), ('e', 0x6), ('r', 0xD),
   ('a', 0x7), ('s', 0x8), ('d', 0x9), ('f', 0xE),
   ('z', 0xA), ('x', 0x0), ('c', 0xB), ('v', 0xF)]

/-- The keypad's key at the place of a key code of SDL2. -/
def key? (code : Int) : Option UInt8 :=
  (table.find? fun place => (place.1.toNat : Int) == code).map (·.2)

end Chip8.Layout
