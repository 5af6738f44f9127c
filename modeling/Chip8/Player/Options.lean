import Chip8.Speed

/-!
# The player's command line

`Options.parse` reads the arguments from left to right. A value is not looked at when
it is met but when its option is settled, which happens as soon as another argument
needs the place; so an unknown argument is reported before a bad value that stands
right in front of it, while any other complaint about it comes after.
-/

namespace Chip8
set_option autoImplicit false

/-- What the player was asked to do. -/
structure Options where
  rom : String
  speed : Speed
  scale : Nat
  seed : Option UInt64
  /-- Only print a listing of the ROM. -/
  disassemble : Bool
  mute : Bool

/-- Why a command line gives no options. -/
inductive Refusal where
  | missingRom
  /-- An option that does not exist, or a second ROM. -/
  | unknownArgument
  /-- A value that is not one of the possible ones, or no value at all. -/
  | invalidValue
  /-- A value that is no number, or not in the range of the option. -/
  | badNumber
  /-- An option given twice. -/
  | repeated
  /-- A value for an option that takes none. -/
  | unwantedValue
  | helpAsked
  | versionAsked
deriving DecidableEq

namespace Options

/-- What a value can be given for. -/
inductive Slot where
  | rom
  | speed
  | scale
  | seed
deriving DecidableEq

/-- What can be asked for without a value. -/
inductive Switch where
  | disassemble
  | mute
  | help
  | version
deriving DecidableEq

/-- What an option's name stands for. -/
inductive Named where
  | slot (slot : Slot)
  | switch (switch : Switch)

/-- The option of a long name. -/
def named? : String → Option Named
  | "speed" => some (.slot .speed)
  | "scale" => some (.slot .scale)
  | "seed" => some (.slot .seed)
  | "disassemble" => some (.switch .disassemble)
  | "mute" => some (.switch .mute)
  | "help" => some (.switch .help)
  | "version" => some (.switch .version)
  | _ => none

/-- The values settled so far, and one that waits to be settled: the slot it is meant
for, with the value once it was met. -/
structure Draft where
  rom : Option String
  speed : Option Speed
  scale : Option Nat
  seed : Option UInt64
  disassemble : Bool
  mute : Bool
  open? : Option (Slot × Option String)

/-- Nothing was read. -/
def Draft.empty : Draft :=
  { rom := none, speed := none, scale := none, seed := none
    disassemble := false, mute := false, open? := none }

/-- A number of 64 bits: decimal digits, at least one, with or without a plus sign. -/
def number? (text : String) : Option Nat :=
  let digits :=
    match text.toList with
    | '+' :: digits => digits
    | digits => digits
  if digits.isEmpty || !digits.all Char.isDigit then none
  else
    let n := digits.foldl (fun n c => n * 10 + (c.toNat - '0'.toNat)) 0
    if n < UInt64.size then some n else none

/-- Whether a slot has a value already. -/
def Draft.has (d : Draft) : Slot → Bool
  | .rom => d.rom.isSome
  | .speed => d.speed.isSome
  | .scale => d.scale.isSome
  | .seed => d.seed.isSome

/-- Gives a slot its value. -/
def Draft.give (d : Draft) (slot : Slot) (value : String) : Except Refusal Draft :=
  if d.has slot then .error .repeated
  else
    match slot with
    | .rom => if value.isEmpty then .error .invalidValue else .ok { d with rom := some value }
    | .speed =>
      match Speed.ofName? value false with
      | some speed => .ok { d with speed := some speed }
      | none => .error .invalidValue
    | .scale =>
      match number? value with
      | some n => .ok { d with scale := some n }
      | none => .error .badNumber
    | .seed =>
      match number? value with
      | some n => .ok { d with seed := some (.ofNat n) }
      | none => .error .badNumber

/-- Settles the value that waits, if one does. -/
def Draft.settle (d : Draft) : Except Refusal Draft :=
  match d.open? with
  | none => .ok d
  | some (_, none) => .error .invalidValue
  | some (slot, some value) => { d with open? := none }.give slot value

/-- Turns a switch on. -/
def Draft.turnOn (d : Draft) (switch : Switch) : Except Refusal Draft := do
  let d ← d.settle
  match switch with
  | .help => .error .helpAsked
  | .version => .error .versionAsked
  | .disassemble => if d.disassemble then .error .repeated else .ok { d with disassemble := true }
  | .mute => if d.mute then .error .repeated else .ok { d with mute := true }

/-- Reads a long option, with the value attached to it by an equals sign if one is. -/
def Draft.long (d : Draft) (name : String) (attached : Option String) : Except Refusal Draft :=
  match named? name, attached with
  | none, _ => .error .unknownArgument
  | some (.switch switch), none => d.turnOn switch
  | some (.switch _), some _ => .error .unwantedValue
  | some (.slot slot), some value => do (← d.settle).give slot value
  | some (.slot slot), none => return { ← d.settle with open? := some (slot, none) }

/-- Reads a cluster of short options. Both of them end the reading. -/
def Draft.short (d : Draft) : List Char → Except Refusal Draft
  | 'h' :: _ => d.turnOn .help
  | 'V' :: _ => d.turnOn .version
  | _ => .error .unknownArgument

/-- Reads an argument that is no option: the ROM, once. -/
def Draft.positional (d : Draft) (argument : String) : Except Refusal Draft :=
  let taken :=
    match d.open? with
    | some (.rom, _) => true
    | _ => d.rom.isSome
  if taken then .error .unknownArgument
  else return { ← d.settle with open? := some (.rom, some argument) }

/-- Reads an argument that may be the value of the option in front of it. -/
def Draft.plain (d : Draft) (argument : String) : Except Refusal Draft :=
  match d.open? with
  | some (slot, none) => .ok { d with open? := some (slot, some argument) }
  | _ => d.positional argument

/-- What stands in front of the first equals sign and behind it, if there is one. -/
def splitAttached : List Char → String × Option String
  | [] => ("", none)
  | '=' :: value => ("", some (String.ofList value))
  | c :: rest =>
    let (name, attached) := splitAttached rest
    (String.ofList (c :: name.toList), attached)

/-- Reads one argument. -/
def Draft.argument (d : Draft) (argument : String) : Except Refusal Draft :=
  match argument.toList with
  | '-' :: '-' :: rest =>
    let (name, attached) := splitAttached rest
    d.long name attached
  | '-' :: c :: rest => d.short (c :: rest)
  | _ => d.plain argument

/-- Reads the arguments in order. After `--` none of them is an option. -/
def Draft.arguments (d : Draft) : List String → Except Refusal Draft
  | [] => .ok d
  | "--" :: rest => rest.foldlM Draft.positional d
  | argument :: rest => do (← d.argument argument).arguments rest

/-- The options that a draft amounts to. -/
def ofDraft (d : Draft) : Except Refusal Options :=
  match d.rom with
  | none => .error .missingRom
  | some rom => .ok
      { rom
        speed := d.speed.getD .full
        scale := d.scale.getD 16
        seed := d.seed
        disassemble := d.disassemble
        mute := d.mute }

/-- The options of a command line. -/
def parse (arguments : List String) : Except Refusal Options := do
  ofDraft (← (← Draft.empty.arguments arguments).settle)

end Options

end Chip8
