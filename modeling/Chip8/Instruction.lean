/-!
# Instructions

What a machine can be told to do. Register operands are bytes and addresses are
words, so an instruction can name a register or an address that no machine has;
the machine refuses such an operand when it comes to use it.
-/

namespace Chip8
set_option autoImplicit false

/-- A question about the machine that a skip depends on. -/
inductive Test where
  /-- Whether V`x` holds this byte. -/
  | byte (x value : UInt8)
  /-- Whether V`x` and V`y` hold the same byte. -/
  | register (x y : UInt8)
  /-- Whether the key numbered by the low four bits of V`x` is held. -/
  | key (x : UInt8)
deriving DecidableEq

/-- An operation on V`x` and V`y` whose result goes into V`x`. -/
inductive Arithmetic where
  | copy
  | or
  | and
  | xor
  | add
  /-- V`x` less V`y`. -/
  | subtract
  /-- Half of V`y`. -/
  | shiftRight
  /-- V`y` less V`x`. -/
  | subtractFrom
  /-- Twice V`y`. -/
  | shiftLeft
deriving DecidableEq

/-- One instruction with its operands. -/
inductive Instruction where
  /-- A routine of the host computer; it has no effect here. -/
  | system (address : UInt16)
  | clear
  | ret
  | jump (target : UInt16)
  | call (target : UInt16)
  /-- Skips the next instruction if the answer to the test is the expected one. -/
  | skip (test : Test) (expected : Bool)
  | set (x value : UInt8)
  /-- Adds to V`x` modulo 256 and leaves the flag alone. -/
  | increase (x value : UInt8)
  | arithmetic (op : Arithmetic) (x y : UInt8)
  | setIndex (address : UInt16)
  /-- Jumps to the address plus V0. -/
  | jumpOffset (base : UInt16)
  /-- A random byte, of which only the bits of the mask are kept. -/
  | random (x mask : UInt8)
  /-- Draws the rows at I with their corner at column V`x` and row V`y`. -/
  | draw (x y rows : UInt8)
  | readDelay (x : UInt8)
  /-- Waits until a key is pressed and puts its number into V`x`. -/
  | awaitKey (x : UInt8)
  | setDelay (x : UInt8)
  | setSound (x : UInt8)
  | increaseIndex (x : UInt8)
  /-- Points I at the picture of the digit in V`x`. -/
  | pointGlyph (x : UInt8)
  /-- Writes the three decimal digits of V`x` at I. -/
  | storeDecimal (x : UInt8)
  /-- Writes V0 to V`x` at I and moves I past them. -/
  | storeRegisters (x : UInt8)
  /-- Reads V0 to V`x` from I and moves I past them. -/
  | loadRegisters (x : UInt8)
deriving DecidableEq

end Chip8
