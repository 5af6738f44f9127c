import Chip8.Numeral
import Chip8.Instruction

/-!
# Mnemonics

An instruction is written as an operation and its operands, `DRW V1, V2, 5`.
Addresses have at least three hexadecimal digits and bytes at least two; a register
is written `V` and its number, and a count of rows is decimal.
-/

namespace Chip8
set_option autoImplicit false

/-- What may stand as an operand. -/
inductive Operand where
  | register (x : UInt8)
  | byte (value : UInt8)
  | address (value : UInt16)
  | count (value : UInt8)
  /-- The index register. -/
  | index
  /-- The memory that the index register points at. -/
  | atIndex
  | delay
  | sound
  /-- The next key pressed. -/
  | key
  /-- The picture of a digit. -/
  | glyph
  /-- The three decimal digits of a number. -/
  | decimal
deriving DecidableEq

open Numeral in
/-- The text of an operand. -/
def Operand.text : Operand → String
  | register x => "V" ++ hex 1 x.toNat
  | byte value => hexMarked 2 value.toNat
  | address value => hexMarked 3 value.toNat
  | count value => Numeral.decimal value.toNat
  | index => "I"
  | atIndex => "[I]"
  | delay => "DT"
  | sound => "ST"
  | key => "K"
  | glyph => "F"
  | decimal => "B"

/-- The word for an arithmetic operation. -/
def Arithmetic.mnemonic : Arithmetic → String
  | copy => "LD"
  | or => "OR"
  | and => "AND"
  | xor => "XOR"
  | add => "ADD"
  | subtract => "SUB"
  | shiftRight => "SHR"
  | subtractFrom => "SUBN"
  | shiftLeft => "SHL"

namespace Instruction

/-- The word for the operation, and the operands in the order they are written. -/
def assembly : Instruction → String × List Operand
  | system address => ("SYS", [.address address])
  | clear => ("CLS", [])
  | ret => ("RET", [])
  | jump target => ("JP", [.address target])
  | call target => ("CALL", [.address target])
  | skip (.byte x value) true => ("SE", [.register x, .byte value])
  | skip (.byte x value) false => ("SNE", [.register x, .byte value])
  | skip (.register x y) true => ("SE", [.register x, .register y])
  | skip (.register x y) false => ("SNE", [.register x, .register y])
  | skip (.key x) true => ("SKP", [.register x])
  | skip (.key x) false => ("SKNP", [.register x])
  | set x value => ("LD", [.register x, .byte value])
  | increase x value => ("ADD", [.register x, .byte value])
  | arithmetic op x y => (op.mnemonic, [.register x, .register y])
  | setIndex address => ("LD", [.index, .address address])
  | jumpOffset base => ("JP", [.register 0, .address base])
  | random x mask => ("RND", [.register x, .byte mask])
  | draw x y rows => ("DRW", [.register x, .register y, .count rows])
  | readDelay x => ("LD", [.register x, .delay])
  | awaitKey x => ("LD", [.register x, .key])
  | setDelay x => ("LD", [.delay, .register x])
  | setSound x => ("LD", [.sound, .register x])
  | increaseIndex x => ("ADD", [.index, .register x])
  | pointGlyph x => ("LD", [.glyph, .register x])
  | storeDecimal x => ("LD", [.decimal, .register x])
  | storeRegisters x => ("LD", [.atIndex, .register x])
  | loadRegisters x => ("LD", [.register x, .atIndex])

/-- The text of an instruction in a listing. -/
def mnemonic (instruction : Instruction) : String :=
  match instruction.assembly with
  | (operation, []) => operation
  | (operation, operands) => operation ++ " " ++ ", ".intercalate (operands.map Operand.text)

end Instruction

end Chip8
