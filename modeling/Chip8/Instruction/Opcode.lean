import Chip8.Fault
import Chip8.Instruction

/-!
# Opcodes

An instruction is encoded in a word of four hexadecimal digits. The first digit, and
for some families the last one or two, select the instruction; the others hold
its operands: registers `x` and `y`, a nibble `n`, a byte `kk`, an address `nnn`.
A word that encodes nothing is refused with the word itself as the cause.
-/

namespace Chip8.Opcode
set_option autoImplicit false

/-- The number formed by `count` hexadecimal digits of a word from digit `first` on,
digit 1 being the most significant. -/
def digits (word : UInt16) (first count : Nat) : Nat :=
  word.toNat >>> (4 * (4 - count - (first - 1))) % 1 <<< (4 * count)

/-- The first digit, which selects the family. -/
def family (word : UInt16) : Nat := digits word 1 1

/-- The second digit, the register written or tested. -/
def x (word : UInt16) : UInt8 := .ofNat (digits word 2 1)

/-- The third digit, the other register. -/
def y (word : UInt16) : UInt8 := .ofNat (digits word 3 1)

/-- The last digit. -/
def n (word : UInt16) : UInt8 := .ofNat (digits word 4 1)

/-- The last two digits. -/
def kk (word : UInt16) : UInt8 := .ofNat (digits word 3 2)

/-- The last three digits. -/
def nnn (word : UInt16) : UInt16 := .ofNat (digits word 2 3)

/-- The arithmetic operation selected by the last digit of family 8. -/
def arithmetic? : Nat → Option Arithmetic
  | 0x0 => some .copy
  | 0x1 => some .or
  | 0x2 => some .and
  | 0x3 => some .xor
  | 0x4 => some .add
  | 0x5 => some .subtract
  | 0x6 => some .shiftRight
  | 0x7 => some .subtractFrom
  | 0xE => some .shiftLeft
  | _ => none

/-- The instruction selected by the last two digits of family F, for register `x`. -/
def miscellaneous? (x : UInt8) : Nat → Option Instruction
  | 0x07 => some (.readDelay x)
  | 0x0A => some (.awaitKey x)
  | 0x15 => some (.setDelay x)
  | 0x18 => some (.setSound x)
  | 0x1E => some (.increaseIndex x)
  | 0x29 => some (.pointGlyph x)
  | 0x33 => some (.storeDecimal x)
  | 0x55 => some (.storeRegisters x)
  | 0x65 => some (.loadRegisters x)
  | _ => none

/-- The instruction that a word encodes, if it encodes one. -/
def instruction? (word : UInt16) : Option Instruction :=
  match family word with
  | 0x0 =>
    if word = 0x00E0 then some .clear
    else if word = 0x00EE then some .ret
    else some (.system (nnn word))
  | 0x1 => some (.jump (nnn word))
  | 0x2 => some (.call (nnn word))
  | 0x3 => some (.skip (.byte (x word) (kk word)) true)
  | 0x4 => some (.skip (.byte (x word) (kk word)) false)
  | 0x5 => if n word = 0 then some (.skip (.register (x word) (y word)) true) else none
  | 0x6 => some (.set (x word) (kk word))
  | 0x7 => some (.increase (x word) (kk word))
  | 0x8 => (arithmetic? (n word).toNat).map fun op => .arithmetic op (x word) (y word)
  | 0x9 => if n word = 0 then some (.skip (.register (x word) (y word)) false) else none
  | 0xA => some (.setIndex (nnn word))
  | 0xB => some (.jumpOffset (nnn word))
  | 0xC => some (.random (x word) (kk word))
  | 0xD => some (.draw (x word) (y word) (n word))
  | 0xE =>
    if kk word = 0x9E then some (.skip (.key (x word)) true)
    else if kk word = 0xA1 then some (.skip (.key (x word)) false)
    else none
  | _ => miscellaneous? (x word) (kk word).toNat

/-- The instruction that a word encodes. -/
def decode (word : UInt16) : Except Fault Instruction :=
  match instruction? word with
  | some instruction => .ok instruction
  | none => .error (.illegalOpcode word.toNat)

theorem decode_eq_ok_iff {word : UInt16} {instruction : Instruction} :
    decode word = .ok instruction ↔ instruction? word = some instruction := by
  cases h : instruction? word <;> simp [decode, h]

theorem decode_eq_error_iff {word : UInt16} {fault : Fault} :
    decode word = .error fault ↔ instruction? word = none ∧ fault = .illegalOpcode word.toNat := by
  cases h : instruction? word <;> simp [decode, h, eq_comm]

end Chip8.Opcode
