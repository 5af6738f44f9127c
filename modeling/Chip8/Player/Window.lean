/-!
# The player's window

How large a point is shown, in which colours, and which keys of a keyboard stand for
the keys of the keypad.
-/

namespace Chip8.Window
set_option autoImplicit false

/-- The factors by which a window can enlarge a point. -/
inductive Scale where
  | x1
  | x2
  | x4
  | x8
  | x16
  | x32
deriving DecidableEq

namespace Scale

/-- The factor itself. -/
def factor : Scale → Nat
  | x1 => 1
  | x2 => 2
  | x4 => 4
  | x8 => 8
  | x16 => 16
  | x32 => 32

/-- All factors, smallest first. -/
def all : List Scale := [.x1, .x2, .x4, .x8, .x16, .x32]

/-- The smallest factor that is not below the one asked for, or else the largest. -/
def covering (asked : Nat) : Scale := (all.find? fun scale => asked ≤ scale.factor).getD .x32

end Scale

/-- One number made of the three parts of a colour, red in the high bits. Parts above
255 run into each other. -/
def colour (red green blue : UInt16) : UInt32 :=
  red.toUInt32 <<< 16 ||| green.toUInt32 <<< 8 ||| blue.toUInt32

/-- The colour of a point that is off. -/
def off : UInt32 := colour 0 0 0

/-- The colour of a point that is on. -/
def on : UInt32 := colour 0 127 255

/-- The keypad, laid over the left of a keyboard row by row:

`1 2 3 C` on `1 2 3 4`, `4 5 6 D` on `Q W E R`, `7 8 9 E` on `A S D F`, `A 0 B F` on
`Z X C V`. -/
def layout : List (Char × UInt8) :=
  [('1', 0x1), ('2', 0x2), ('3', 0x3), ('4', 0xC),
   ('Q', 0x4), ('W', 0x5), ('E', 0x6), ('R', 0xD),
   ('A', 0x7), ('S', 0x8), ('D', 0x9), ('F', 0xE),
   ('Z', 0xA), ('X', 0x0), ('C', 0xB), ('V', 0xF)]

/-- The keypad key of the keyboard key that is marked with a character. -/
def keypadKey? (mark : Char) : Option UInt8 := layout.lookup mark

end Chip8.Window
