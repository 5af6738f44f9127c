import Chip8.Runner

/-!
# Schedules

What can happen to a runner, as data: passes of its worker at arbitrary times, calls
of the machine between two passes, and requests to stop. A schedule is a list of
these in the order in which they happen, so a statement about all interleavings of
a worker with its callers is a statement about all schedules.
-/

namespace Chip8
set_option autoImplicit false

/-- Something that happens to a runner. -/
inductive RunnerEvent where
  | pass (now : Int)
  | call (call : Call)
  | stop
deriving DecidableEq

namespace Runner

/-- The runner after something happened to it. -/
def perform (r : Runner) : RunnerEvent → Runner
  | .pass now => r.pass now
  | .call call => (r.call call).1
  | .stop => r.stop

/-- The runner at the end of a schedule. -/
def after (r : Runner) (schedule : List RunnerEvent) : Runner := schedule.foldl perform r

theorem after_append (r : Runner) (schedule more : List RunnerEvent) :
    r.after (schedule ++ more) = (r.after schedule).after more := by
  simp [after, List.foldl_append]

end Runner

end Chip8
