import Chip8.Machine.Operation
import Chip8.Storage

/-!
# The machine as it is stored

All that can be done to a machine once more, done to its parts as they are stored. An effect
changes the parts one after the other and keeps what it changed before it was refused, so the
order of the changes counts. How two numbers are summed is left open (`sum`): as they are, or
with only so many bits of the sum kept.
-/

namespace Chip8
set_option autoImplicit false

/-- The whole machine with its registers and its frame as they are stored. -/
structure StoredMachine where
  registers : StoredRegisters
  memory : Memory
  stack : CallStack
  frame : StoredFrame
  keypad : Keypad
  random : Random
  clock : Clock
  mode : Mode
  resumeTo : Mode
  programSize : Option Nat
  fault : Option Fault

namespace StoredMachine

/-- A machine into which nothing was loaded, with a generator of random bytes. -/
def fresh (random : Random) : StoredMachine :=
  { registers := .zero
    memory := .blank
    stack := .empty
    frame := .blank
    keypad := .untouched
    random
    clock := .stopped
    mode := .idle
    resumeTo := .running
    programSize := none
    fault := none }

end StoredMachine

/-- A machine as it is stored. -/
def Machine.stored (m : Machine) : StoredMachine :=
  { registers := m.registers.stored
    memory := m.memory
    stack := m.stack
    frame := m.frame.stored
    keypad := m.keypad
    random := m.random
    clock := m.clock
    mode := m.mode
    resumeTo := m.resumeTo
    programSize := m.programSize
    fault := m.fault }

namespace Machine

variable (m : Machine)

@[simp] theorem stored_memory : m.stored.memory = m.memory := rfl

@[simp] theorem stored_stack : m.stored.stack = m.stack := rfl

@[simp] theorem stored_keypad : m.stored.keypad = m.keypad := rfl

@[simp] theorem stored_mode : m.stored.mode = m.mode := rfl

@[simp] theorem stored_registers : m.stored.registers = m.registers.stored := rfl

@[simp] theorem stored_index : m.registers.stored.index = m.index := rfl

@[simp] theorem stored_pc : m.registers.stored.pc = m.pc := rfl

end Machine

namespace StoredMachine

/-! ## Changes of the parts -/

section

variable {α : Type}

def onRegisters (change : Change StoredRegisters α) : Change StoredMachine α :=
  .onPart (·.registers) (fun registers m => { m with registers }) change

def onMemory (change : Change Memory α) : Change StoredMachine α :=
  .onPart (·.memory) (fun memory m => { m with memory }) change

def onStack (change : Change CallStack α) : Change StoredMachine α :=
  .onPart (·.stack) (fun stack m => { m with stack }) change

def onKeypad (change : Change Keypad α) : Change StoredMachine α :=
  .onPart (·.keypad) (fun keypad m => { m with keypad }) change

end

/-- The byte in V`x`. -/
def readV (x : Nat) : Change StoredMachine UInt8 := do ofExcept ((← get).registers.read x)

/-- Puts a number into V`x`. -/
def putV (x value : Nat) : Change StoredMachine Unit := onRegisters (StoredRegisters.put x value)

/-- Puts a byte at an address. -/
def writeByte (address : Nat) (byte : UInt8) : Change StoredMachine Unit :=
  onMemory (.renew fun memory => memory.write address byte)

/-- Opens a call that will return to `address`. -/
def push (address : Nat) : Change StoredMachine Unit :=
  onStack (.renew fun stack => stack.push address)

/-- Closes the most recent call and answers where it returns to. -/
def pop : Change StoredMachine Nat := onStack (.whole CallStack.pop)

/-- Presses a key. -/
def press (key : UInt8) : Change StoredMachine Unit :=
  onKeypad (.renew fun keypad => keypad.press key)

/-- Lets a key go. -/
def release (key : UInt8) : Change StoredMachine Unit :=
  onKeypad (.renew fun keypad => keypad.release key)

/-! ## Instructions -/

variable (sum : Nat → Nat → Nat)

/-- Puts a flag into VF, if there is one to report. -/
def report : Option Bool → Change StoredMachine Unit
  | some on => onRegisters (StoredRegisters.setFlag on)
  | none => pure ()

/-- Puts a byte into V`x` and its flag into VF, the flag last. -/
def putReporting (x : Nat) (byte : UInt8) (flag : Option Bool) : Change StoredMachine Unit := do
  putV x byte.toNat
  report flag

/-- An operation on V`x` and V`y` and its flag. -/
def arithmetic (op : Arithmetic) (x y : Nat) : Change StoredMachine Unit := do
  let a ← bif op.readsTarget then readV x else pure 0
  let b ← readV y
  putReporting x (op.result a b) (op.flag? a b)

/-- The answer to a test. -/
def answer : Test → Change StoredMachine Bool
  | .byte x value => return (← readV x.toNat) == value
  | .register x y => return (← readV x.toNat) == (← readV y.toNat)
  | .key x => do
    let byte ← readV x.toNat
    ofExcept ((← get).keypad.isHeld (byte &&& 0xF))

/-- Draws a sprite and answers whether a point went out. -/
def drawSprite (x y : UInt8) (sprite : List UInt8) : Change StoredMachine Bool :=
  modifyGet fun m =>
    let (collision, frame) := paint m.frame x y sprite
    (collision, { m with frame })

/-- Draws the rows at I and puts into VF whether a point went out. -/
def draw (x y rows : UInt8) : Change StoredMachine Unit := do
  let across ← readV x.toNat
  let down ← readV y.toNat
  let m ← get
  let sprite ← ofExcept (m.memory.slice m.registers.index rows.toNat)
  let collision ← drawSprite across down sprite
  onRegisters (StoredRegisters.setFlag collision)

/-- Writes the decimal digits of a byte from an address on, as far as memory goes. -/
def writeDigits (index : Nat) (byte : UInt8) : Change StoredMachine Unit :=
  (Machine.decimalDigits byte).zipIdx.forM fun (digit, i) => writeByte (sum index i) digit

/-- Writes V0 to V`x` from an address on, as far as registers and memory go. -/
def saveRegisters (index : Nat) (x : UInt8) : Change StoredMachine Unit :=
  (Machine.transferred x).forM fun r => do writeByte (sum index r) (← readV r)

/-- Reads V0 to V`x` from an address on, as far as registers and memory go. -/
def restoreRegisters (index : Nat) (x : UInt8) : Change StoredMachine Unit :=
  (Machine.transferred x).forM fun r => do
    let byte ← ofExcept ((← get).memory.read (sum index r))
    putV r byte.toNat

/-- Moves I past the bytes of a transfer up to V`x`. -/
def finishTransfer (index : Nat) (x : UInt8) : Change StoredMachine Unit :=
  onRegisters (StoredRegisters.setIndex (sum (sum index x.toNat) 1))

/-- The effect of an instruction, and how the program counter is to move. -/
def execute : Instruction → Change StoredMachine Progress
  | .system _ => return .next
  | .clear => do
    modify fun m => { m with frame := .blank }
    return .next
  | .ret => return .jump (← pop)
  | .jump target => return .jump target.toNat
  | .call target => do
    push (sum (← get).registers.pc 2)
    return .jump target.toNat
  | .skip test expected => return .skipIf ((← answer test) == expected)
  | .set x value => do
    putV x.toNat value.toNat
    return .next
  | .increase x value => do
    putV x.toNat ((← readV x.toNat) + value).toNat
    return .next
  | .arithmetic op x y => do
    arithmetic op x.toNat y.toNat
    return .next
  | .setIndex address => do
    onRegisters (StoredRegisters.setIndex address.toNat)
    return .next
  | .jumpOffset base => return .jump (sum base.toNat (← readV 0).toNat)
  | .random x mask => do
    let (byte, random) := (← get).random.next
    modify fun m => { m with random }
    putV x.toNat (byte &&& mask).toNat
    return .next
  | .draw x y rows => do
    draw x y rows
    return .next
  | .readDelay x => do
    putV x.toNat (← get).registers.delayByte.toNat
    return .next
  | .awaitKey x => do
    let _ ← readV x.toNat
    modify fun m => { m with keypad := m.keypad.arm x }
    return .hold
  | .setDelay x => do
    let byte ← readV x.toNat
    modify fun m => { m with registers := m.registers.setDelay byte }
    return .next
  | .setSound x => do
    let byte ← readV x.toNat
    modify fun m => { m with registers := m.registers.setSound byte }
    return .next
  | .increaseIndex x => do
    let index := (← get).registers.index
    onRegisters (StoredRegisters.setIndex (sum index (← readV x.toNat).toNat))
    return .next
  | .pointGlyph x => do
    onRegisters (StoredRegisters.setIndex (glyphAddress (← readV x.toNat)))
    return .next
  | .storeDecimal x => do
    let byte ← readV x.toNat
    writeDigits sum (← get).registers.index byte
    return .next
  | .storeRegisters x => do
    let index := (← get).registers.index
    saveRegisters sum index x
    finishTransfer sum index x
    return .next
  | .loadRegisters x => do
    let index := (← get).registers.index
    restoreRegisters sum index x
    finishTransfer sum index x
    return .next

/-! ## Control -/

/-- Moves the program counter as an instruction asked for. -/
def proceed (progress : Progress) : Change StoredMachine Unit := do
  let pc := (← get).registers.pc
  match progress with
  | .next => onRegisters (StoredRegisters.setPc (sum pc 2))
  | .skip => onRegisters (StoredRegisters.setPc (sum pc 4))
  | .jump target => onRegisters (StoredRegisters.setPc target)
  | .hold => modify fun m => { m with mode := .awaitingKey }

/-- Whether the next instruction lies in the loaded program. -/
def inProgram (m : StoredMachine) : Except Fault Bool :=
  match m.programSize with
  | none => .error .noProgram
  | some size =>
    let pc := m.registers.pc
    .ok (decide (programStart ≤ pc ∧ pc < programStart + size))

/-- Halts if the program counter has left the program. -/
def settle : Change StoredMachine Unit := do
  if !(← ofExcept (← get).inProgram) then
    modify fun m => { m with mode := .halted }

/-- The instruction at the program counter. -/
def fetch (m : StoredMachine) : Except Fault Instruction := do
  Opcode.decode (← m.memory.readWord m.registers.pc)

/-- The rest of a step once an instruction made its answer. -/
def conclude (progress : Progress) (cycle : Cycle) : Change StoredMachine Cycle := do
  proceed sum progress
  if (← get).mode = .running then settle
  return cycle

/-- Fetches, executes and concludes one instruction. -/
def instructionCycle : Change StoredMachine Cycle := do
  let instruction ← ofExcept (← get).fetch
  conclude sum (← execute sum instruction) (.executed instruction)

/-- The step of a running machine. -/
def runCycle : Change StoredMachine Cycle := do
  settle
  if (← get).mode = .halted then return .halted
  instructionCycle sum

/-- The rest of a step once a key came in: past the instruction that waited, and running again. -/
def goOn (cycle : Cycle) : Change StoredMachine Cycle := do
  proceed sum .next
  modify fun m => { m with mode := .running }
  settle
  return cycle

/-- The step of a machine that waits for a key. -/
def keyCycle : Change StoredMachine Cycle := do
  match ← onKeypad (.whole fun keypad => .ok keypad.take) with
  | none => return .awaitingKey
  | some (register, key) =>
    putV register.toNat key.toNat
    goOn sum (.keyReceived register key)

/-- Halts by the fault that a cycle ended in, if it ended in one. -/
def guarded (cycle : Change StoredMachine Cycle) : Change StoredMachine Cycle :=
  cycle.onRefusal fun fault m => { m with mode := .halted, fault := some fault }

/-- Executes at most one instruction, or picks up a key that arrived. -/
def step : Change StoredMachine Cycle := do
  match (← get).mode with
  | .idle => throw .noProgram
  | .halted => return .halted
  | .paused => return .paused
  | .awaitingKey => guarded (keyCycle sum)
  | .running => guarded (runCycle sum)

/-- Pauses a machine that is under way. -/
def pause (m : StoredMachine) : StoredMachine :=
  if m.mode.isActive then { m with mode := .paused, resumeTo := m.mode } else m

/-- Lets a paused machine go on. -/
def resume (m : StoredMachine) : StoredMachine :=
  if m.mode = .paused then { m with clock := .stopped, mode := m.resumeTo } else m

/-- One step of a paused machine, which stays paused unless the step halts it. -/
def singleStep : Change StoredMachine Cycle := do
  if (← get).mode = .paused then
    modify fun m => { m with mode := m.resumeTo }
    try step sum finally modify pause
  else step sum

/-- Lets the timers catch up with the time `now`. -/
def syncTimers (now : Int) (m : StoredMachine) : StoredMachine :=
  if m.mode.isActive then
    let (periods, clock) := m.clock.sync now
    if 0 < periods then { m with clock, registers := m.registers.decay periods }
    else { m with clock }
  else { m with clock := .rebase now }

/-- Loads a program and makes the machine ready to run it. -/
def load (program : List UInt8) : Change StoredMachine Unit := do
  let memory ← ofExcept (Memory.load program)
  modify fun m => { m with memory, stack := .empty, registers := .zero }
  onRegisters (StoredRegisters.setPc programStart)
  modify fun m => { m with
    frame := .blank
    keypad := m.keypad.cancel
    clock := .stopped
    programSize := some program.length
    fault := none
    resumeTo := .running
    mode := .running }

/-! ## Operations -/

/-- What a call does. -/
def perform : Call → Change StoredMachine Unit
  | .load program => load program
  | .step => discard (step sum)
  | .singleStep => discard (singleStep sum)
  | .tick now => do
    modify (syncTimers now)
    discard (step sum)
  | .syncTimers now => modify (syncTimers now)
  | .pause => modify pause
  | .resume => modify resume
  | .press key => press key
  | .release key => release key
  | .takeFrame => modify fun m => { m with frame := m.frame.take.2 }

/-- What an operation does. -/
def effect : Operation → Change StoredMachine Unit
  | .call call => perform sum call
  | .execute i => discard (execute sum i)
  | .setRegister x value => putV x value
  | .setFlag on => onRegisters (StoredRegisters.setFlag on)
  | .setIndex address => onRegisters (StoredRegisters.setIndex address)
  | .setPc address => onRegisters (StoredRegisters.setPc address)
  | .setDelay value => modify fun m => { m with registers := m.registers.setDelay value }
  | .setSound value => modify fun m => { m with registers := m.registers.setSound value }
  | .decay periods => modify fun m => { m with registers := m.registers.decay periods }
  | .write address byte => writeByte address byte
  | .loadImage program => do
    let memory ← ofExcept (Memory.load program)
    modify fun m => { m with memory, stack := .empty }
  | .push address => push address
  | .pop => discard pop
  | .setPoint x y on => modify fun m => { m with frame := m.frame.set x y on }
  | .clear => modify fun m => { m with frame := .blank }
  | .paint x y sprite => discard (drawSprite x y sprite)
  | .key event => modify fun m => { m with keypad := m.keypad.perform event }

/-- The machine after some operations, one after the other. -/
def operated (m : StoredMachine) (operations : List Operation) : StoredMachine :=
  operations.foldl (fun m operation => (effect sum operation).leaves m) m

end StoredMachine

end Chip8
