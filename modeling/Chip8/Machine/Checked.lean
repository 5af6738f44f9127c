import Chip8.Checked
import Chip8.Machine.Call

/-!
# The machine that watches its limits

The calls of the machine once more, carried out on parts that watch their limits. Wherever a
call adds two numbers of 16 bits, or goes to a place of an array, or lets the clock move its
baseline on, it does so by the operations of `Chip8.Checked`, and goes on with what they give:
if one of them has no result, the call has none. Memory needs no such watch, as it refuses an
address outside with a fault.
-/

namespace Chip8
set_option autoImplicit false

/-- Applies `change` to the items in order until one fails, if all of the changes made on the
way have a result. -/
def checkedSweep {σ α : Type} (change : σ → α → Option (Except Fault σ)) :
    σ → List α → Option (σ × Except Fault Unit)
  | s, [] => some (s, .ok ())
  | s, item :: rest => do
    match ← change s item with
    | .ok s => checkedSweep change s rest
    | .error fault => return (s, .error fault)

namespace Machine

/-- A machine into which nothing was loaded, with a generator of random bytes. -/
def checkedFresh (random : Random) : Option Machine := do
  return { fresh random with memory := ← Memory.checkedBlank }

/-- Loads a program and makes the machine ready to run it. -/
def checkedLoad (m : Machine) (program : List UInt8) : Option (Except Fault Machine) := do
  match ← Memory.checkedLoad program with
  | .error fault => return .error fault
  | .ok memory =>
    return .ok { m with
      registers := startRegisters
      memory
      stack := .empty
      frame := m.frame.clear
      keypad := m.keypad.cancel
      clock := .stopped
      mode := .running
      resumeTo := .running
      programSize := some program.length
      fault := none }

/-- The answer to a test. -/
def checkedAnswer (m : Machine) : Test → Option Bool
  | .byte x value => return (← m.registers.checkedRead x.toNat) == value
  | .register x y =>
    return (← m.registers.checkedRead x.toNat) == (← m.registers.checkedRead y.toNat)
  | .key x => do m.keypad.checkedIsHeld ((← m.registers.checkedRead x.toNat) &&& 0xF)

/-- Draws the rows at I and puts into VF whether a point went out. -/
def checkedDraw (m : Machine) (x y rows : UInt8) : Option (Machine × Except Fault Progress) := do
  let across ← m.registers.checkedRead x.toNat
  let down ← m.registers.checkedRead y.toNat
  match m.memory.slice m.index rows.toNat with
  | .error fault => return (m, .error fault)
  | .ok sprite =>
    let (collision, frame) ← m.frame.checkedPaint across down sprite
    let registers ← m.registers.checkedSetFlag collision
    return ({ m with registers, frame }, .ok .next)

/-- Memory with the decimal digits of a byte at I, as far as memory goes. -/
def checkedDigitsToMemory (m : Machine) (byte : UInt8) : Option (Memory × Except Fault Unit) :=
  checkedSweep (fun memory (digit, i) => return memory.write (← checkedSum m.index i) digit)
    m.memory (decimalDigits byte).zipIdx

/-- Memory with V0 to V`x` at I, as far as memory goes. -/
def checkedRegistersToMemory (m : Machine) (x : UInt8) : Option (Memory × Except Fault Unit) :=
  checkedSweep
    (fun memory r =>
      return memory.write (← checkedSum m.index r) (← m.registers.checkedRead r))
    m.memory (transferred x)

/-- Registers with the bytes at I in V0 to V`x`, as far as memory goes. -/
def checkedMemoryToRegisters (m : Machine) (x : UInt8) :
    Option (RegisterFile × Except Fault Unit) :=
  checkedSweep
    (fun registers r => do
      match m.memory.read (← checkedSum m.index r) with
      | .ok byte => return .ok (← registers.checkedWrite r byte)
      | .error fault => return .error fault)
    m.registers (transferred x)

/-- The end of a transfer of V0 to V`x`: if all of it succeeded, I moves past the bytes. -/
def checkedFinishTransfer (m : Machine) (x : UInt8) (outcome : Except Fault Unit) :
    Option (Machine × Except Fault Progress) :=
  match outcome with
  | .ok () => do
    let last ← checkedSum m.index x.toNat
    return m.changeRegisters (m.registers.setIndex (← checkedSum last 1))
  | .error fault => some (m, .error fault)

/-- The effect of an instruction, and how the program counter is to move. -/
def checkedExecute (m : Machine) : Instruction → Option (Machine × Except Fault Progress)
  | .system _ => some (m, .ok .next)
  | .clear => some ({ m with frame := m.frame.clear }, .ok .next)
  | .ret => do
    match ← m.stack.checkedPop with
    | .ok (address, stack) => return ({ m with stack }, .ok (.jump address))
    | .error fault => return (m, .error fault)
  | .jump target => some (m, .ok (.jump target.toNat))
  | .call target => do
    match ← m.stack.checkedPush (← checkedSum m.pc 2) with
    | .ok stack => return ({ m with stack }, .ok (.jump target.toNat))
    | .error fault => return (m, .error fault)
  | .skip test expected => return (m, .ok (.skipIf ((← m.checkedAnswer test) == expected)))
  | .set x value => return m.changeRegisters (.ok (← m.registers.checkedWrite x.toNat value))
  | .increase x value => do
    let byte ← m.registers.checkedRead x.toNat
    return m.changeRegisters (.ok (← m.registers.checkedWrite x.toNat (byte + value)))
  | .arithmetic op x y =>
    return m.changeRegisters (.ok (← m.registers.checkedArithmetic op x.toNat y.toNat))
  | .setIndex address => some (m.changeRegisters (m.registers.setIndex address.toNat))
  | .jumpOffset base => do
    let offset ← m.registers.checkedRead 0
    return (m, .ok (.jump (← checkedSum base.toNat offset.toNat)))
  | .random x mask => do
    let (byte, random) := m.random.next
    return { m with random }.changeRegisters
      (.ok (← m.registers.checkedWrite x.toNat (byte &&& mask)))
  | .draw x y rows => m.checkedDraw x y rows
  | .readDelay x =>
    return m.changeRegisters (.ok (← m.registers.checkedWrite x.toNat m.registers.delay))
  | .awaitKey x => do
    let _ ← m.registers.checkedRead x.toNat
    return ({ m with keypad := m.keypad.arm x }, .ok .hold)
  | .setDelay x => do
    let delay ← m.registers.checkedRead x.toNat
    return m.changeRegisters (.ok { m.registers with delay })
  | .setSound x => do
    let sound ← m.registers.checkedRead x.toNat
    return m.changeRegisters (.ok { m.registers with sound })
  | .increaseIndex x => do
    let byte ← m.registers.checkedRead x.toNat
    return m.changeRegisters (m.registers.setIndex (← checkedSum m.index byte.toNat))
  | .pointGlyph x => do
    let digit ← m.registers.checkedRead x.toNat
    return m.changeRegisters
      (m.registers.setIndex (← checkedSum fontStart (digit.toNat % 16 * 5)))
  | .storeDecimal x => do
    let (memory, outcome) ← m.checkedDigitsToMemory (← m.registers.checkedRead x.toNat)
    return ({ m with memory }, outcome.map fun _ => .next)
  | .storeRegisters x => do
    let (memory, outcome) ← m.checkedRegistersToMemory x
    checkedFinishTransfer { m with memory } x outcome
  | .loadRegisters x => do
    let (registers, outcome) ← m.checkedMemoryToRegisters x
    (m.withRegisters registers).checkedFinishTransfer x outcome

/-- Moves the program counter as an instruction asked for. -/
def checkedProceed (m : Machine) : Progress → Option (Except Fault Machine)
  | .next => return m.moveTo (← checkedSum m.pc 2)
  | .skip => return m.moveTo (← checkedSum m.pc 4)
  | .jump target => some (m.moveTo target)
  | .hold => some (.ok (m.withMode .awaitingKey))

/-- The rest of a step once an instruction made its answer. -/
def checkedConclude (m : Machine) (progress : Progress) (cycle : Cycle) :
    Option (Machine × Except Fault Cycle) := do
  match ← m.checkedProceed progress with
  | .error fault => return (m, .error fault)
  | .ok moved =>
    if moved.mode = .running then
      match moved.settle with
      | .error fault => return (moved, .error fault)
      | .ok settled => return (settled, .ok cycle)
    else return (moved, .ok cycle)

/-- Fetches, executes and concludes one instruction. -/
def checkedInstructionCycle (m : Machine) : Option (Machine × Except Fault Cycle) :=
  match m.fetch with
  | .error fault => some (m, .error fault)
  | .ok instruction => do
    match ← m.checkedExecute instruction with
    | (after, .error fault) => return (after, .error fault)
    | (after, .ok progress) => after.checkedConclude progress (.executed instruction)

/-- The step of a running machine. -/
def checkedRunCycle (m : Machine) : Option (Machine × Except Fault Cycle) :=
  match m.inProgram with
  | .error fault => some (m, .error fault)
  | .ok false => some (m.withMode .halted, .ok .halted)
  | .ok true => m.checkedInstructionCycle

/-- The step of a machine that waits for a key. -/
def checkedKeyCycle (m : Machine) : Option (Machine × Except Fault Cycle) :=
  match m.keypad.take with
  | (none, _) => some (m, .ok .awaitingKey)
  | (some (register, key), keypad) => do
    let registers ← m.registers.checkedWrite register.toNat key
    { m with registers, keypad, mode := .running }.checkedConclude .next
      (.keyReceived register key)

/-- Executes at most one instruction, or picks up a key that arrived. -/
def checkedStep (m : Machine) : Option (Machine × Except Fault Cycle) :=
  match m.mode with
  | .idle => some (m, .error .noProgram)
  | .halted => some (m, .ok .halted)
  | .paused => some (m, .ok .paused)
  | .awaitingKey => return guard (← m.checkedKeyCycle)
  | .running => return guard (← m.checkedRunCycle)

/-- One step of a paused machine, which stays paused unless the step halts it. -/
def checkedSingleStep (m : Machine) : Option (Machine × Except Fault Cycle) :=
  if m.mode = .paused then do
    let (after, outcome) ← (m.withMode m.resumeTo).checkedStep
    return (after.pause, outcome)
  else m.checkedStep

/-- Lets the timers catch up with the time `now`. -/
def checkedSyncTimers (m : Machine) (now : Int) : Option Machine :=
  if m.mode.isActive then do
    let (periods, clock) ← m.clock.checkedSync now
    return { m with registers := m.registers.decay periods, clock }
  else some { m with clock := .rebase now }

/-- Presses a key. -/
def checkedPress (m : Machine) (key : UInt8) : Option (Except Fault Machine) := do
  return (← m.keypad.checkedPress key).map fun keypad => { m with keypad }

/-- Lets a key go. -/
def checkedRelease (m : Machine) (key : UInt8) : Option (Except Fault Machine) := do
  return (← m.keypad.checkedRelease key).map fun keypad => { m with keypad }

/-- A step and its answer to the call that made it. -/
def answered (done : Machine × Except Fault Cycle) : Machine × Answer := (done.1, .cycle done.2)

/-- Carries out a call. -/
def checkedPerform (m : Machine) : Call → Option (Machine × Answer)
  | .load program => return m.attempt (← m.checkedLoad program)
  | .step => return answered (← m.checkedStep)
  | .singleStep => return answered (← m.checkedSingleStep)
  | .tick now => do return answered (← (← m.checkedSyncTimers now).checkedStep)
  | .syncTimers now => return (← m.checkedSyncTimers now, .done (.ok ()))
  | .pause => some (m.pause, .done (.ok ()))
  | .resume => some (m.resume, .done (.ok ()))
  | .press key => return m.attempt (← m.checkedPress key)
  | .release key => return m.attempt (← m.checkedRelease key)
  | .takeFrame => some (m.takeFrame.2, .frame m.takeFrame.1)

/-- The machine after a history of calls, with what they are answered. -/
def checkedHistory (m : Machine) : List Call → Option (Machine × List Answer)
  | [] => some (m, [])
  | call :: calls => do
    let (after, answer) ← m.checkedPerform call
    let (final, answers) ← after.checkedHistory calls
    return (final, answer :: answers)

end Machine

end Chip8
