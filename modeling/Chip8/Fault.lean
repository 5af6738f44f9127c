import Chip8.Numeral

/-!
# Faults

Everything a part of the machine can refuse to do, as a cause with its data.
`Fault.message` is the only place where a fault is put into words.
-/

namespace Chip8
set_option autoImplicit false

/-- A cause for which an operation is refused. -/
inductive Fault where
  /-- A fetched word that encodes no instruction. -/
  | illegalOpcode (word : Nat)
  /-- An address outside memory. -/
  | memoryOutOfBounds (address : Nat)
  /-- A register number above VF. -/
  | registerOutOfRange (register : Nat)
  /-- A value too wide for the register it was meant for. -/
  | registerOverflow (value bits : Nat)
  /-- A call while every slot of the call stack is taken. -/
  | stackFull
  /-- A return while no call is open. -/
  | stackEmpty
  /-- A step of a machine into which nothing was loaded. -/
  | noProgram
  /-- A program that does not fit above the address programs start at. -/
  | programTooLarge (size limit : Nat)
  /-- A key that the keypad does not have. -/
  | invalidKey (key : Nat)
deriving DecidableEq

open Numeral in
/-- The text of a fault, as it is reported to the player. -/
def Fault.message : Fault → String
  | illegalOpcode word => "illegal opcode " ++ hexMarked 4 word
  | memoryOutOfBounds address => "memory access out of bounds at address " ++ hexMarked 4 address
  | registerOutOfRange register => "register V" ++ hex 1 register ++ " does not exist"
  | registerOverflow value bits =>
    "value " ++ hexMarked 1 value ++ " cannot be stored using " ++ decimal bits ++ " bits"
  | stackFull => "call stack is full"
  | stackEmpty => "return with an empty call stack"
  | noProgram => "no program loaded"
  | programTooLarge size limit =>
    "ROM is too large (" ++ decimal size ++ " bytes), max size is " ++ decimal limit ++ " bytes"
  | invalidKey key => "key " ++ hexMarked 1 key ++ " is outside the keypad"

end Chip8
