import Chip8.Machine.Journal
import Chip8.Speed

/-!
# The runner

A worker drives a machine, one whole tick at a time, while others look at the machine
and call it between two ticks. The worker ends when it finds the machine halted, over
a fault, or on request; `Runner.join` asks it to stop and reports how it ended. A
worker can also die in the middle of a tick, at a note that it fails to deliver: then
the machine stays as it stood at that note.
-/

namespace Chip8
set_option autoImplicit false

/-- The state of the worker. -/
inductive Worker where
  | working
  | ended (outcome : Except Fault Unit)
  /-- Died in the middle of a tick. -/
  | dead

/-- A machine that is driven by a worker. -/
structure Runner where
  machine : Machine
  worker : Worker
  stopRequested : Bool

namespace Runner

/-- Hands a machine over to a worker. -/
def spawn (machine : Machine) : Runner :=
  { machine, worker := .working, stopRequested := false }

/-- Ends the worker. -/
def finish (r : Runner) (outcome : Except Fault Unit) : Runner :=
  { r with worker := .ended outcome }

/-- One pass of the worker's loop at the time `now`: it obeys a request to stop, or else
makes a tick and ends if the machine halted or failed. A worker that ended makes no
more passes. -/
def pass (r : Runner) (now : Int) : Runner :=
  match r.worker with
  | .working =>
    if r.stopRequested then r.finish (.ok ())
    else
      let (machine, outcome) := r.machine.tick now
      let ticked := { r with machine }
      match outcome with
      | .ok .halted => ticked.finish (.ok ())
      | .ok _ => ticked
      | .error fault => ticked.finish (.error fault)
  | _ => r

/-- The entries about one pass of the worker. -/
def journal (r : Runner) (now : Int) : List Entry :=
  if r.stopRequested then [r.machine.entry .workerStopped]
  else
    let (after, outcome) := r.machine.tick now
    r.machine.journal (.tick now) ++
      match outcome with
      | .ok .halted => [after.entry .workerDone]
      | .ok _ => []
      | .error fault => [after.entry (.workerFailed fault)]

/-- The worker dies and leaves the machine as it stands in an entry. -/
def dieAt (r : Runner) (entry : Entry) : Runner :=
  { r with machine := entry.machine, worker := .dead }

/-- One pass of a worker that dies at the first of its entries that `fatal` picks. -/
def passUnless (fatal : Note → Bool) (r : Runner) (now : Int) : Runner :=
  match r.worker with
  | .working =>
    match (r.journal now).find? fun entry => fatal entry.note with
    | some entry => r.dieAt entry
    | none => r.pass now
  | _ => r

/-- Hands a machine over to a worker that dies at once if `fatal` picks its first note. -/
def spawnUnless (fatal : Note → Bool) (machine : Machine) (speed : Speed) : Runner :=
  let start := machine.entry (.workerStarted speed.hertz)
  if fatal start.note then (spawn machine).dieAt start else spawn machine

/-- Looks at the machine or calls it between two passes. -/
def withMachine {α : Type} (r : Runner) (use : Machine → Machine × α) : Runner × α :=
  let (machine, answer) := use r.machine
  ({ r with machine }, answer)

/-- A call of the machine between two passes. -/
def call (r : Runner) (call : Call) : Runner × Answer := r.withMachine fun m => m.perform call

/-- Asks the worker to stop before its next tick. Asking again changes nothing. -/
def stop (r : Runner) : Runner := { r with stopRequested := true }

/-- Whether the worker is gone. -/
def isFinished (r : Runner) : Bool :=
  match r.worker with
  | .working => false
  | _ => true

/-- How the worker ended: over which fault, if it was a fault. In place of a worker that
died the fault that the machine recorded is reported. -/
def outcome (r : Runner) : Except Fault Unit :=
  match r.worker with
  | .working => .ok ()
  | .ended outcome => outcome
  | .dead =>
    match r.machine.fault with
    | some fault => .error fault
    | none => .ok ()

/-- Asks the worker to stop, lets it end, and reports how it ended. -/
def join (r : Runner) (now : Int) : Except Fault Unit := (r.stop.pass now).outcome

/-- The report on a worker that may die over the last of its notes too. -/
def joinUnless (fatal : Note → Bool) (r : Runner) (now : Int) : Except Fault Unit :=
  (r.stop.passUnless fatal now).outcome

/-- Joining never makes another tick. -/
theorem join_working (r : Runner) (now : Int) (h : r.worker = .working) : r.join now = .ok () := by
  simp [join, stop, pass, h, finish, outcome]

end Runner

end Chip8
