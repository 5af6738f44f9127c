import Chip8.Keypad.History
import Chip8.Machine.Call

/-!
# Operations on a machine

All that can be done to a machine and to its parts from outside, as data: beside the calls that
drive it these are instructions executed out of turn and changes of single registers, bytes,
points and keys, with whatever arguments. `Machine.operate` carries an operation out; one that is
refused changes nothing, unless it is an instruction, which keeps what it did before it failed.
-/

namespace Chip8
set_option autoImplicit false

/-- An operation on a machine with its arguments. -/
inductive Operation where
  | call (call : Call)
  /-- The effect of an instruction alone: the program counter stands. -/
  | execute (i : Instruction)
  | setRegister (x value : Nat)
  | setFlag (on : Bool)
  | setIndex (address : Nat)
  | setPc (address : Nat)
  | setDelay (value : UInt8)
  | setSound (value : UInt8)
  | decay (periods : Nat)
  | write (address : Nat) (byte : UInt8)
  /-- The program alone goes into memory, which also empties the call stack. -/
  | loadImage (program : List UInt8)
  | push (address : Nat)
  | pop
  | setPoint (x y : Nat) (on : Bool)
  | clear
  | paint (x y : UInt8) (sprite : List UInt8)
  | key (event : KeyEvent)

namespace Machine

/-- Carries out an operation. -/
def operate (m : Machine) : Operation → Machine
  | .call call => (m.perform call).1
  | .execute i => (m.execute i).1
  | .setRegister x value => (m.changeRegisters (m.registers.writeNat x value)).1
  | .setFlag on => m.withRegisters (m.registers.setFlag on)
  | .setIndex address => (m.changeRegisters (m.registers.setIndex address)).1
  | .setPc address => (m.changeRegisters (m.registers.setPc address)).1
  | .setDelay value => m.withRegisters { m.registers with delay := value }
  | .setSound value => m.withRegisters { m.registers with sound := value }
  | .decay periods => m.withRegisters (m.registers.decay periods)
  | .write address byte =>
    (m.attempt ((m.memory.write address byte).map fun memory => { m with memory })).1
  | .loadImage program => (m.attempt (m.loadImage program)).1
  | .push address => (m.attempt ((m.stack.push address).map fun stack => { m with stack })).1
  | .pop => (m.attempt (m.stack.pop.map fun popped => { m with stack := popped.2 })).1
  | .setPoint x y on => { m with frame := m.frame.set x y on }
  | .clear => { m with frame := m.frame.clear }
  | .paint x y sprite => { m with frame := (Chip8.paint m.frame x y sprite).2 }
  | .key event => { m with keypad := m.keypad.perform event }

/-- The machine after some operations, one after the other. -/
def operated (m : Machine) (operations : List Operation) : Machine := operations.foldl operate m

/-- The copy of the frame that an operation hands out, if it does. -/
def copied (m : Machine) : Operation → Option Frame
  | .call .takeFrame => m.takeFrame.1
  | _ => none

/-- The copies of the frame that some operations hand out, the first one first. -/
def copies (m : Machine) : List Operation → List Frame
  | [] => []
  | operation :: rest => (m.copied operation).toList ++ (m.operate operation).copies rest

@[simp] theorem operated_nil (m : Machine) : m.operated [] = m := rfl

@[simp] theorem operated_cons (m : Machine) (operation : Operation) (rest : List Operation) :
    m.operated (operation :: rest) = (m.operate operation).operated rest := rfl

end Machine

end Chip8
