import Chip8.Instruction

/-!
# Encoding

The word of an instruction, family by family. Only an instruction whose operands
fit has a word of its own: register numbers and heights of one digit, addresses of
three, and a host routine that is not one of the two addresses taken by clearing
and returning (`Instruction.IsEncodable`).
-/

namespace Chip8
set_option autoImplicit false

/-- The last digit of family 8 that selects an operation. -/
def Arithmetic.digit : Arithmetic → Nat
  | copy => 0x0
  | or => 0x1
  | and => 0x2
  | xor => 0x3
  | add => 0x4
  | subtract => 0x5
  | shiftRight => 0x6
  | subtractFrom => 0x7
  | shiftLeft => 0xE

namespace Instruction

/-- The word of a family and an address. -/
def addressWord (family : Nat) (address : UInt16) : UInt16 :=
  .ofNat (family * 0x1000 + address.toNat)

/-- The word of a family, a register and the last two digits. -/
def byteWord (family : Nat) (x : UInt8) (last : Nat) : UInt16 :=
  .ofNat (family * 0x1000 + x.toNat * 0x100 + last)

/-- The word of a family, two registers and the last digit. -/
def registersWord (family : Nat) (x y : UInt8) (last : Nat) : UInt16 :=
  byteWord family x (y.toNat * 0x10 + last)

/-- The word that encodes an instruction. -/
def encode : Instruction → UInt16
  | system address => addressWord 0x0 address
  | clear => 0x00E0
  | ret => 0x00EE
  | jump target => addressWord 0x1 target
  | call target => addressWord 0x2 target
  | skip (.byte x value) true => byteWord 0x3 x value.toNat
  | skip (.byte x value) false => byteWord 0x4 x value.toNat
  | skip (.register x y) true => registersWord 0x5 x y 0
  | skip (.register x y) false => registersWord 0x9 x y 0
  | skip (.key x) true => byteWord 0xE x 0x9E
  | skip (.key x) false => byteWord 0xE x 0xA1
  | set x value => byteWord 0x6 x value.toNat
  | increase x value => byteWord 0x7 x value.toNat
  | arithmetic op x y => registersWord 0x8 x y op.digit
  | setIndex address => addressWord 0xA address
  | jumpOffset base => addressWord 0xB base
  | random x mask => byteWord 0xC x mask.toNat
  | draw x y rows => registersWord 0xD x y rows.toNat
  | readDelay x => byteWord 0xF x 0x07
  | awaitKey x => byteWord 0xF x 0x0A
  | setDelay x => byteWord 0xF x 0x15
  | setSound x => byteWord 0xF x 0x18
  | increaseIndex x => byteWord 0xF x 0x1E
  | pointGlyph x => byteWord 0xF x 0x29
  | storeDecimal x => byteWord 0xF x 0x33
  | storeRegisters x => byteWord 0xF x 0x55
  | loadRegisters x => byteWord 0xF x 0x65

/-- Whether an operand fits into one digit. -/
def IsDigit (operand : UInt8) : Prop := operand.toNat < 0x10

/-- Whether an address fits into three digits. -/
def IsAddress (address : UInt16) : Prop := address.toNat < 0x1000

instance (operand : UInt8) : Decidable (IsDigit operand) := Nat.decLt ..

instance (address : UInt16) : Decidable (IsAddress address) := Nat.decLt ..

/-- Whether the operands of an instruction fit into its word. -/
def IsEncodable : Instruction → Prop
  | system address => IsAddress address ∧ address ≠ 0x00E0 ∧ address ≠ 0x00EE
  | clear | ret => True
  | jump address | call address | setIndex address | jumpOffset address => IsAddress address
  | skip (.byte x _) _ | skip (.key x) _ | set x _ | increase x _ | random x _ => IsDigit x
  | skip (.register x y) _ | arithmetic _ x y => IsDigit x ∧ IsDigit y
  | draw x y rows => IsDigit x ∧ IsDigit y ∧ IsDigit rows
  | readDelay x | awaitKey x | setDelay x | setSound x | increaseIndex x | pointGlyph x
  | storeDecimal x | storeRegisters x | loadRegisters x => IsDigit x

instance (instruction : Instruction) : Decidable instruction.IsEncodable := by
  unfold IsEncodable
  split <;> infer_instance

end Instruction

end Chip8
