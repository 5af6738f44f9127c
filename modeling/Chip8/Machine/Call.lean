import Chip8.Machine.Control

/-!
# Calls of the machine

The ways in which the machine is driven from outside, as data, so that a history of a
machine is a list of calls. `Machine.perform` carries a call out and answers it;
`Machine.after` is the machine at the end of a history.
-/

namespace Chip8
set_option autoImplicit false

/-- A call of the machine with its arguments. Times are in nanoseconds. -/
inductive Call where
  | load (program : List UInt8)
  | step
  | singleStep
  | tick (now : Int)
  | syncTimers (now : Int)
  | pause
  | resume
  | press (key : UInt8)
  | release (key : UInt8)
  | takeFrame
deriving DecidableEq

/-- What a call is answered. -/
inductive Answer where
  /-- The call was carried out, or refused. -/
  | done (outcome : Except Fault Unit)
  | cycle (outcome : Except Fault Cycle)
  | frame (copy : Option Frame)

namespace Machine

/-- The new machine if the call was not refused, else the old one. -/
def attempt (m : Machine) (after : Except Fault Machine) : Machine × Answer :=
  match after with
  | .ok after => (after, .done (.ok ()))
  | .error fault => (m, .done (.error fault))

/-- Carries out a call. -/
def perform (m : Machine) : Call → Machine × Answer
  | .load program => m.attempt (m.load program)
  | .step => (m.step.1, .cycle m.step.2)
  | .singleStep => (m.singleStep.1, .cycle m.singleStep.2)
  | .tick now => ((m.tick now).1, .cycle (m.tick now).2)
  | .syncTimers now => (m.syncTimers now, .done (.ok ()))
  | .pause => (m.pause, .done (.ok ()))
  | .resume => (m.resume, .done (.ok ()))
  | .press key => m.attempt (m.press key)
  | .release key => m.attempt (m.release key)
  | .takeFrame => (m.takeFrame.2, .frame m.takeFrame.1)

/-- What the calls of a history are answered, in order. -/
def answers (m : Machine) : List Call → List Answer
  | [] => []
  | call :: calls => (m.perform call).2 :: (m.perform call).1.answers calls

/-- The machine after a history of calls. -/
def after (m : Machine) (calls : List Call) : Machine :=
  calls.foldl (fun m call => (m.perform call).1) m

@[simp] theorem after_nil (m : Machine) : m.after [] = m := rfl

@[simp] theorem after_cons (m : Machine) (call : Call) (calls : List Call) :
    m.after (call :: calls) = (m.perform call).1.after calls := rfl

theorem after_append (m : Machine) (calls more : List Call) :
    m.after (calls ++ more) = (m.after calls).after more := by
  simp [after, List.foldl_append]

end Machine

end Chip8
