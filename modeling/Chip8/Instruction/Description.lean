import Chip8.Numeral
import Chip8.Instruction

/-!
# Descriptions

In the journal an instruction is described by a name of its own and all its operands
as decimal numbers, `Display(0, 1, 5)`.
-/

namespace Chip8
set_option autoImplicit false

/-- The name of an arithmetic operation in the journal. -/
def Arithmetic.name : Arithmetic → String
  | copy => "CopyRegister"
  | or => "Or"
  | and => "And"
  | xor => "XOr"
  | add => "Add"
  | subtract => "SubtractForward"
  | shiftRight => "RightShift"
  | subtractFrom => "SubtractBackward"
  | shiftLeft => "LeftShift"

namespace Instruction

/-- The name of an instruction in the journal, and its operands. -/
def nameAndOperands : Instruction → String × List Nat
  | system address => ("Sys", [address.toNat])
  | clear => ("ClearScreen", [])
  | ret => ("PopSubroutine", [])
  | jump target => ("Jump", [target.toNat])
  | call target => ("PushSubroutine", [target.toNat])
  | skip (.byte x value) true => ("SkipEqualConstant", [x.toNat, value.toNat])
  | skip (.byte x value) false => ("SkipNotEqualConstant", [x.toNat, value.toNat])
  | skip (.register x y) true => ("SkipEqualRegister", [x.toNat, y.toNat])
  | skip (.register x y) false => ("SkipNotEqualRegister", [x.toNat, y.toNat])
  | skip (.key x) true => ("SkipIfPressed", [x.toNat])
  | skip (.key x) false => ("SkipIfNotPressed", [x.toNat])
  | set x value => ("SetRegister", [x.toNat, value.toNat])
  | increase x value => ("AddToRegister", [x.toNat, value.toNat])
  | arithmetic op x y => (op.name, [x.toNat, y.toNat])
  | setIndex address => ("SetIndexRegister", [address.toNat])
  | jumpOffset base => ("JumpWithOffset", [base.toNat])
  | random x mask => ("Random", [x.toNat, mask.toNat])
  | draw x y rows => ("Display", [x.toNat, y.toNat, rows.toNat])
  | readDelay x => ("CopyDelayToRegister", [x.toNat])
  | awaitKey x => ("GetKey", [x.toNat])
  | setDelay x => ("CopyRegisterToDelay", [x.toNat])
  | setSound x => ("CopyRegisterToSound", [x.toNat])
  | increaseIndex x => ("AddToIndex", [x.toNat])
  | pointGlyph x => ("PointChar", [x.toNat])
  | storeDecimal x => ("ToDecimal", [x.toNat])
  | storeRegisters x => ("StoreRegisterToMemory", [x.toNat])
  | loadRegisters x => ("LoadRegisterFromMemory", [x.toNat])

/-- The description of an instruction in the journal. -/
def description (instruction : Instruction) : String :=
  match instruction.nameAndOperands with
  | (name, []) => name
  | (name, operands) => name ++ "(" ++ ", ".intercalate (operands.map Numeral.decimal) ++ ")"

end Instruction

end Chip8
