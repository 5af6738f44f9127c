import Chip8.Instruction.Opcode
import Chip8.Machine

/-!
# The effect of an instruction

`Machine.execute` carries out an instruction and answers how the program counter is
to move, without moving it. The answer and the machine come together, because an
instruction that fails may have done part of its work: a transfer keeps the bytes
moved before the one that failed, and a random byte is drawn before the register it
is meant for is looked at. Every other instruction that fails leaves the machine as
it was (`whole_error`, `changeRegisters_error`).
-/

namespace Chip8
set_option autoImplicit false

/-- How the program counter moves after an instruction. -/
inductive Progress where
  | next
  /-- Past the instruction after this one. -/
  | skip
  | jump (target : Nat)
  /-- Not at all, until a key is pressed. -/
  | hold
deriving DecidableEq

/-- Past the next instruction if `condition` holds, else to it. -/
def Progress.skipIf (condition : Bool) : Progress := if condition then .skip else .next

namespace Arithmetic

/-- Whether the operation looks at the register it writes. -/
def readsTarget : Arithmetic → Bool
  | copy | shiftRight | shiftLeft => false
  | _ => true

/-- What goes into V`x`, from the bytes in V`x` and V`y`. -/
def result : Arithmetic → UInt8 → UInt8 → UInt8
  | copy, _, b => b
  | or, a, b => a ||| b
  | and, a, b => a &&& b
  | xor, a, b => a ^^^ b
  | add, a, b => a + b
  | subtract, a, b => a - b
  | shiftRight, _, b => b >>> 1
  | subtractFrom, a, b => b - a
  | shiftLeft, _, b => b <<< 1

/-- What goes into VF, for an operation that reports a flag: a carry, a difference
above zero, or the bit shifted out. -/
def flag? : Arithmetic → UInt8 → UInt8 → Option Bool
  | add, a, b => some (255 < a.toNat + b.toNat)
  | subtract, a, b => some (b < a)
  | subtractFrom, a, b => some (a < b)
  | shiftRight, _, b => some (b.toNat % 2 = 1)
  | shiftLeft, _, b => some (128 ≤ b.toNat)
  | _, _, _ => none

end Arithmetic

/-- Applies `change` to the items in order until one fails. What the earlier ones did
stays. -/
def sweep {σ α : Type} (change : σ → α → Except Fault σ) : σ → List α → σ × Except Fault Unit
  | s, [] => (s, .ok ())
  | s, item :: rest =>
    match change s item with
    | .ok s => sweep change s rest
    | .error fault => (s, .error fault)

/-- Puts a flag into VF, if there is one to report. -/
def RegisterFile.report (r : RegisterFile) : Option Bool → RegisterFile
  | some on => r.setFlag on
  | none => r

/-- An operation and its flag on V`x` and V`y`. The flag is written last, so in VF it
takes the place of the result. -/
def RegisterFile.arithmetic (r : RegisterFile) (op : Arithmetic) (x y : Nat) :
    Except Fault RegisterFile := do
  let a ← bif op.readsTarget then r.read x else .ok 0
  let b ← r.read y
  return (← r.write x (op.result a b)).report (op.flag? a b)

namespace Machine

/-- The machine with other registers. -/
def withRegisters (m : Machine) (registers : RegisterFile) : Machine := { m with registers }

/-- An effect that happens as a whole or leaves the machine alone. -/
def whole (m : Machine) (effect : Except Fault (Machine × Progress)) :
    Machine × Except Fault Progress :=
  match effect with
  | .ok (after, progress) => (after, .ok progress)
  | .error fault => (m, .error fault)

/-- An effect on the registers alone, after which the next instruction follows. -/
def changeRegisters (m : Machine) (registers : Except Fault RegisterFile) :
    Machine × Except Fault Progress :=
  m.whole (registers.map fun registers => (m.withRegisters registers, .next))

/-- The answer to a test. -/
def answer (m : Machine) : Test → Except Fault Bool
  | .byte x value => return (← m.registers.read x.toNat) == value
  | .register x y => return (← m.registers.read x.toNat) == (← m.registers.read y.toNat)
  | .key x => do m.keypad.isHeld ((← m.registers.read x.toNat) &&& 0xF)

/-- Draws the rows at I and answers whether a point went out. The flag is not yet
written. -/
def drawSprite (m : Machine) (x y rows : UInt8) : Except Fault (Bool × Machine) := do
  let across ← m.registers.read x.toNat
  let down ← m.registers.read y.toNat
  let sprite ← m.memory.slice m.index rows.toNat
  let (collision, frame) := paint m.frame across down sprite
  return (collision, { m with frame })

/-- Draws the rows at I and puts into VF whether a point went out. -/
def draw (m : Machine) (x y rows : UInt8) : Machine × Except Fault Progress :=
  m.whole do
    let (collision, drawn) ← m.drawSprite x y rows
    return (drawn.withRegisters (drawn.registers.setFlag collision), .next)

/-- The hundreds, tens and ones of a byte. -/
def decimalDigits (byte : UInt8) : List UInt8 :=
  [byte / 100, byte / 10 % 10, byte % 10]

/-- Memory with the decimal digits of a byte at I, as far as memory goes. -/
def digitsToMemory (m : Machine) (byte : UInt8) : Memory × Except Fault Unit :=
  sweep (fun memory (digit, i) => memory.write (m.index + i) digit) m.memory
    (decimalDigits byte).zipIdx

/-- Writes the decimal digits of V`x` at I, as far as memory goes. -/
def storeDecimal (m : Machine) (x : UInt8) : Machine × Except Fault Progress :=
  match m.registers.read x.toNat with
  | .error fault => (m, .error fault)
  | .ok byte =>
    let (memory, outcome) := m.digitsToMemory byte
    ({ m with memory }, outcome.map fun _ => .next)

/-- The end of a transfer of V0 to V`x`: if all of it succeeded, I moves past the bytes. -/
def finishTransfer (m : Machine) (x : UInt8) (outcome : Except Fault Unit) :
    Machine × Except Fault Progress :=
  match outcome with
  | .ok () => m.changeRegisters (m.registers.setIndex (m.index + x.toNat + 1))
  | .error fault => (m, .error fault)

/-- The registers that a transfer up to V`x` moves, in order. -/
def transferred (x : UInt8) : List Nat := List.range (x.toNat + 1)

/-- Memory with V0 to V`x` at I, as far as registers and memory go. -/
def registersToMemory (m : Machine) (x : UInt8) : Memory × Except Fault Unit :=
  sweep (fun memory r => do memory.write (m.index + r) (← m.registers.read r)) m.memory
    (transferred x)

/-- Registers with the bytes at I in V0 to V`x`, as far as registers and memory go. -/
def memoryToRegisters (m : Machine) (x : UInt8) : RegisterFile × Except Fault Unit :=
  sweep (fun registers r => do registers.write r (← m.memory.read (m.index + r))) m.registers
    (transferred x)

/-- Writes V0 to V`x` at I, as far as registers and memory go. -/
def storeRegisters (m : Machine) (x : UInt8) : Machine × Except Fault Progress :=
  let (memory, outcome) := m.registersToMemory x
  finishTransfer { m with memory } x outcome

/-- Reads V0 to V`x` from I, as far as registers and memory go. -/
def loadRegisters (m : Machine) (x : UInt8) : Machine × Except Fault Progress :=
  let (registers, outcome) := m.memoryToRegisters x
  finishTransfer (m.withRegisters registers) x outcome

/-- The effect of an instruction, and how the program counter is to move. -/
def execute (m : Machine) : Instruction → Machine × Except Fault Progress
  | .system _ => (m, .ok .next)
  | .clear => ({ m with frame := m.frame.clear }, .ok .next)
  | .ret => m.whole do
    let (address, stack) ← m.stack.pop
    return ({ m with stack }, .jump address)
  | .jump target => (m, .ok (.jump target.toNat))
  | .call target => m.whole do
    let stack ← m.stack.push (m.pc + 2)
    return ({ m with stack }, .jump target.toNat)
  | .skip test expected => m.whole do
    return (m, .skipIf ((← m.answer test) == expected))
  | .set x value => m.changeRegisters (m.registers.write x.toNat value)
  | .increase x value => m.changeRegisters do
    m.registers.write x.toNat ((← m.registers.read x.toNat) + value)
  | .arithmetic op x y => m.changeRegisters (m.registers.arithmetic op x.toNat y.toNat)
  | .setIndex address => m.changeRegisters (m.registers.setIndex address.toNat)
  | .jumpOffset base => m.whole do
    return (m, .jump (base.toNat + (← m.registers.read 0).toNat))
  | .random x mask =>
    let (byte, random) := m.random.next
    { m with random }.changeRegisters (m.registers.write x.toNat (byte &&& mask))
  | .draw x y rows => m.draw x y rows
  | .readDelay x => m.changeRegisters (m.registers.write x.toNat m.registers.delay)
  | .awaitKey x => m.whole do
    let _ ← m.registers.read x.toNat
    return ({ m with keypad := m.keypad.arm x }, .hold)
  | .setDelay x => m.changeRegisters do
    return { m.registers with delay := ← m.registers.read x.toNat }
  | .setSound x => m.changeRegisters do
    return { m.registers with sound := ← m.registers.read x.toNat }
  | .increaseIndex x => m.changeRegisters do
    m.registers.setIndex (m.index + (← m.registers.read x.toNat).toNat)
  | .pointGlyph x => m.changeRegisters do
    m.registers.setIndex (glyphAddress (← m.registers.read x.toNat))
  | .storeDecimal x => m.storeDecimal x
  | .storeRegisters x => m.storeRegisters x
  | .loadRegisters x => m.loadRegisters x

theorem changeRegisters_ok (m : Machine) (registers : RegisterFile) :
    m.changeRegisters (.ok registers) = (m.withRegisters registers, .ok .next) := rfl

end Machine

end Chip8
