import Chip8.Machine.Execute

/-!
# Control

Fetching, stepping, pausing and timing. A step executes at most one instruction; a
step that fails records the fault and halts the machine, and so does a program
counter that leaves the program, without a fault. `tick` first lets the timers catch
up with the time.
-/

namespace Chip8
set_option autoImplicit false

/-- What a step did. -/
inductive Cycle where
  | executed (instruction : Instruction)
  /-- A key that was waited for went into a register. -/
  | keyReceived (register key : UInt8)
  | awaitingKey
  | paused
  | halted
deriving DecidableEq

/-- Whether a step moved the program on, so that another one is due. -/
def goesOn : Except Fault Cycle → Bool
  | .ok (.executed _) | .ok (.keyReceived _ _) => true
  | _ => false

namespace Machine

/-- The machine in another mode. -/
def withMode (m : Machine) (mode : Mode) : Machine := { m with mode }

/-- The instruction at the program counter. -/
def fetch (m : Machine) : Except Fault Instruction := do
  Opcode.decode (← m.memory.readWord m.pc)

/-- The machine with the program counter at `address`. -/
def moveTo (m : Machine) (address : Nat) : Except Fault Machine :=
  return m.withRegisters (← m.registers.setPc address)

/-- Moves the program counter as an instruction asked for. -/
def proceed (m : Machine) : Progress → Except Fault Machine
  | .next => m.moveTo (m.pc + 2)
  | .skip => m.moveTo (m.pc + 4)
  | .jump target => m.moveTo target
  | .hold => .ok (m.withMode .awaitingKey)

/-- Halts if the program counter has left the program. -/
def settle (m : Machine) : Except Fault Machine :=
  return if ← m.inProgram then m else m.withMode .halted

/-- The rest of a step once an instruction made its answer: the program counter moves,
and a machine that did not come to hold halts outside its program. -/
def conclude (m : Machine) (progress : Progress) (cycle : Cycle) : Machine × Except Fault Cycle :=
  match m.proceed progress with
  | .error fault => (m, .error fault)
  | .ok moved =>
    if moved.mode = .running then
      match moved.settle with
      | .error fault => (moved, .error fault)
      | .ok settled => (settled, .ok cycle)
    else (moved, .ok cycle)

/-- Fetches, executes and concludes one instruction. -/
def instructionCycle (m : Machine) : Machine × Except Fault Cycle :=
  match m.fetch with
  | .error fault => (m, .error fault)
  | .ok instruction =>
    match m.execute instruction with
    | (after, .error fault) => (after, .error fault)
    | (after, .ok progress) => after.conclude progress (.executed instruction)

/-- The step of a running machine. -/
def runCycle (m : Machine) : Machine × Except Fault Cycle :=
  match m.inProgram with
  | .error fault => (m, .error fault)
  | .ok false => (m.withMode .halted, .ok .halted)
  | .ok true => m.instructionCycle

/-- A machine whose key arrived: the key is in its register and the machine runs, but
the program counter still stands at the instruction that waited. -/
def receiveKey (m : Machine) (register key : UInt8) : Except Fault Machine :=
  return (m.withRegisters (← m.registers.writeNat register.toNat key.toNat)).withMode .running

/-- The step of a machine that waits for a key. -/
def keyCycle (m : Machine) : Machine × Except Fault Cycle :=
  match m.keypad.take with
  | (none, _) => (m, .ok .awaitingKey)
  | (some (register, key), keypad) =>
    match { m with keypad }.receiveKey register key with
    | .error fault => ({ m with keypad }, .error fault)
    | .ok received => received.conclude .next (.keyReceived register key)

/-- The machine halted by a fault. -/
def fail (m : Machine) (fault : Fault) : Machine :=
  { m with mode := .halted, fault := some fault }

/-- Halts by the fault that a cycle ended in, if it ended in one. -/
def guard : Machine × Except Fault Cycle → Machine × Except Fault Cycle
  | (m, .error fault) => (m.fail fault, .error fault)
  | done => done

/-- Executes at most one instruction, or picks up a key that arrived. The timers are
left alone. A machine into which nothing was loaded refuses and stays as it is. -/
def step (m : Machine) : Machine × Except Fault Cycle :=
  match m.mode with
  | .idle => (m, .error .noProgram)
  | .halted => (m, .ok .halted)
  | .paused => (m, .ok .paused)
  | .awaitingKey => guard m.keyCycle
  | .running => guard m.runCycle

/-- Pauses a machine that is under way. -/
def pause (m : Machine) : Machine :=
  if m.mode.isActive then { m with mode := .paused, resumeTo := m.mode } else m

/-- Lets a paused machine go on. The time of the pause is not made up for. -/
def resume (m : Machine) : Machine :=
  if m.mode = .paused then { m with clock := .stopped, mode := m.resumeTo } else m

/-- Whether the machine is paused. -/
def isPaused (m : Machine) : Bool := m.mode = .paused

/-- One step of a paused machine, which stays paused unless the step halts it. Any
other machine just makes a step. -/
def singleStep (m : Machine) : Machine × Except Fault Cycle :=
  if m.mode = .paused then
    let (after, outcome) := (m.withMode m.resumeTo).step
    (after.pause, outcome)
  else m.step

/-- Lets the timers catch up with the time `now`. While the machine is not under way
time does not count. -/
def syncTimers (m : Machine) (now : Int) : Machine :=
  if m.mode.isActive then
    let (periods, clock) := m.clock.sync now
    { m with registers := m.registers.decay periods, clock }
  else { m with clock := .rebase now }

/-- Lets the timers catch up, then makes a step. -/
def tick (m : Machine) (now : Int) : Machine × Except Fault Cycle := (m.syncTimers now).step

/-- Makes up to `count` steps, ending early after one that neither executed an
instruction nor received a key. Answers how many were made and what the last did. -/
def run (m : Machine) : Nat → Machine × Nat × Option (Except Fault Cycle)
  | 0 => (m, 0, none)
  | count + 1 =>
    let (after, outcome) := m.step
    if goesOn outcome then
      let (last, made, final) := after.run count
      (last, made + 1, final.or (some outcome))
    else (after, 1, some outcome)

end Machine

end Chip8
