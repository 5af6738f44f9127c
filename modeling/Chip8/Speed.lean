/-!
# Speeds

The rates at which a machine can be driven, with the names that select them.
-/

namespace Chip8
set_option autoImplicit false

/-- How many instructions a second are executed. -/
inductive Speed where
  | half
  | full
  | double
deriving DecidableEq

namespace Speed

/-- All speeds, slowest first. -/
def all : List Speed := [.half, .full, .double]

/-- Instructions a second. -/
def hertz : Speed → Nat
  | half => 250
  | full => 500
  | double => 1000

/-- Nanoseconds from one instruction to the next. -/
def cycleTime (speed : Speed) : Nat := 1000000000 / speed.hertz

/-- The name that selects a speed. -/
def name : Speed → String
  | half => "half"
  | full => "full"
  | double => "double"

/-- The speed selected by a text: by the name itself or, if case is ignored, by a name
that differs from it in the case of ASCII letters only. -/
def ofName? (text : String) (ignoreCase : Bool) : Option Speed :=
  all.find? fun speed => speed.name == if ignoreCase then text.toLower else text

/-- What a text that selects no speed is answered. -/
def refusal (text : String) : String := "invalid variant: " ++ text

end Speed

end Chip8
