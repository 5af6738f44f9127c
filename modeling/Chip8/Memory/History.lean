import Chip8.Memory

/-!
# Histories of a memory

The changes of a memory as data, so that what is read from it can be compared with what was
done to it.
-/

namespace Chip8
set_option autoImplicit false

/-- One change of a memory. -/
inductive MemoryEvent where
  | write (address : Nat) (byte : UInt8)
  | load (program : List UInt8)
deriving DecidableEq

namespace Memory

/-- The memory after a change. A refused change leaves it as it was. -/
def perform (m : Memory) : MemoryEvent → Memory
  | .write address byte => (m.write address byte).toOption.getD m
  | .load program => (load program).toOption.getD m

/-- The memory after a history of changes. -/
def after (m : Memory) (events : List MemoryEvent) : Memory := events.foldl perform m

theorem after_append (m : Memory) (events more : List MemoryEvent) :
    m.after (events ++ more) = (m.after events).after more := by
  simp [after, List.foldl_append]

end Memory

end Chip8
