import Chip8.CallStack
import Chip8.Clock
import Chip8.Keypad
import Chip8.Memory
import Chip8.Random
import Chip8.RegisterFile
import Chip8.Screen.Frame

/-!
# The machine

All parts of the machine in one record, and the loading of a program, which renews
everything but the generator, the keys held and the key pressed last. A program too
large is refused and leaves no new machine.
-/

namespace Chip8
set_option autoImplicit false

/-- The state of control. -/
inductive Mode where
  /-- Nothing was loaded yet. -/
  | idle
  | running
  /-- Stopped by the player. -/
  | paused
  /-- Held at an instruction until a key is pressed. -/
  | awaitingKey
  /-- Out of the program, or stopped by a fault. -/
  | halted
deriving DecidableEq

namespace Mode

/-- Whether a machine in this mode is under way: executing, or held until a key is
pressed. -/
def isActive : Mode → Bool
  | running | awaitingKey => true
  | _ => false

/-- The name of a mode in the journal. -/
def name : Mode → String
  | idle => "Idle"
  | running => "Running"
  | paused => "Paused"
  | awaitingKey => "AwaitingKey"
  | halted => "Halted"

end Mode

/-- The whole machine. -/
structure Machine where
  registers : RegisterFile
  memory : Memory
  stack : CallStack
  frame : Frame
  keypad : Keypad
  random : Random
  clock : Clock
  mode : Mode
  /-- The mode in which a paused machine goes on. -/
  resumeTo : Mode
  /-- The size of the loaded program, if one was loaded. -/
  programSize : Option Nat
  /-- The fault that halted the machine, if one did. -/
  fault : Option Fault

namespace Machine

/-- A machine into which nothing was loaded, with a generator of random bytes. -/
def fresh (random : Random) : Machine :=
  { registers := .zero
    memory := .blank
    stack := .empty
    frame := .blank
    keypad := .untouched
    random
    clock := .stopped
    mode := .idle
    resumeTo := .running
    programSize := none
    fault := none }

/-- A machine into which nothing was loaded, with the random bytes of a seed. -/
def new (seed : UInt64) : Machine := fresh (.ofSeed seed)

/-- The address of the next instruction. -/
def pc (m : Machine) : Nat := m.registers.pc.value

/-- The address that the index register holds. -/
def index (m : Machine) : Nat := m.registers.index.value

/-- Registers at the start of a program. -/
def startRegisters : RegisterFile :=
  { RegisterFile.zero with pc := ⟨programStart, by decide⟩ }

/-- Loads a program and makes the machine ready to run it. -/
def load (m : Machine) (program : List UInt8) : Except Fault Machine := do
  let memory ← Memory.load program
  return { m with
    registers := startRegisters
    memory
    stack := .empty
    frame := m.frame.clear
    keypad := m.keypad.cancel
    clock := .stopped
    mode := .running
    resumeTo := .running
    programSize := some program.length
    fault := none }

/-- Replaces memory by the image of a program and empties the call stack. -/
def loadImage (m : Machine) (program : List UInt8) : Except Fault Machine := do
  let memory ← Memory.load program
  return { m with memory, stack := .empty }

/-- Whether the next instruction lies in the loaded program. -/
def inProgram (m : Machine) : Except Fault Bool :=
  match m.programSize with
  | none => .error .noProgram
  | some size => .ok (decide (programStart ≤ m.pc ∧ m.pc < programStart + size))

/-- Presses a key. -/
def press (m : Machine) (key : UInt8) : Except Fault Machine :=
  return { m with keypad := ← m.keypad.press key }

/-- Lets a key go. -/
def release (m : Machine) (key : UInt8) : Except Fault Machine :=
  return { m with keypad := ← m.keypad.release key }

/-- A copy of the frame if it changed since the last copy was taken. -/
def takeFrame (m : Machine) : Option Frame × Machine :=
  let (copy, frame) := m.frame.take
  (copy, { m with frame })

/-- Whether the player is to hear a tone. A machine that is not under way is silent. -/
def soundOn (m : Machine) : Bool := m.mode.isActive && 0 < m.registers.sound

end Machine

end Chip8
