import Chip8.Fault

/-!
# Memory

4096 bytes. A loaded memory is given by a formula, byte by byte: the font at
0x50, the program from 0x200, zero elsewhere. Reads and writes outside are
refused, and a read of several bytes is refused as a whole.
-/

namespace Chip8
set_option autoImplicit false

/-- The pictures of the sixteen hexadecimal digits, five rows each. -/
def font : Vector UInt8 80 := #v[
  0xF0, 0x90, 0x90, 0x90, 0xF0,
  0x20, 0x60, 0x20, 0x20, 0x70,
  0xF0, 0x10, 0xF0, 0x80, 0xF0,
  0xF0, 0x10, 0xF0, 0x10, 0xF0,
  0x90, 0x90, 0xF0, 0x10, 0x10,
  0xF0, 0x80, 0xF0, 0x10, 0xF0,
  0xF0, 0x80, 0xF0, 0x90, 0xF0,
  0xF0, 0x10, 0x20, 0x40, 0x40,
  0xF0, 0x90, 0xF0, 0x90, 0xF0,
  0xF0, 0x90, 0xF0, 0x10, 0xF0,
  0xF0, 0x90, 0xF0, 0x90, 0x90,
  0xE0, 0x90, 0xE0, 0x90, 0xE0,
  0xF0, 0x80, 0x80, 0x80, 0xF0,
  0xE0, 0x90, 0x90, 0x90, 0xE0,
  0xF0, 0x80, 0xF0, 0x80, 0xF0,
  0xF0, 0x80, 0xF0, 0x80, 0x80]

/-- Where the font lies. -/
def fontStart : Nat := 0x50

/-- Where the picture of a digit lies; only the low four bits count. -/
def glyphAddress (digit : UInt8) : Nat := fontStart + digit.toNat % 16 * 5

/-- Where programs are loaded and start. -/
def programStart : Nat := 0x200

/-- The number of bytes of memory. -/
def memorySize : Nat := 4096

/-- The greatest size of a program. -/
def programLimit : Nat := memorySize - programStart

/-- The bytes of the machine. -/
structure Memory where
  bytes : Vector UInt8 4096

namespace Memory

/-- Byte `address` of a memory that holds the font and `program`, nothing else. -/
def imageByte (program : Array UInt8) (address : Nat) : UInt8 :=
  if programStart ≤ address then program.getD (address - programStart) 0
  else if fontStart ≤ address then font.toArray.getD (address - fontStart) 0
  else 0

/-- A memory that holds the font and `program`, nothing else. -/
def image (program : List UInt8) : Memory :=
  let bytes := program.toArray
  ⟨.ofFn fun i => imageByte bytes i⟩

/-- A memory that holds the font alone. -/
def blank : Memory := image []

/-- The memory a program starts with, refused if the program is too large. -/
def load (program : List UInt8) : Except Fault Memory :=
  if program.length ≤ programLimit then .ok (image program)
  else .error (.programTooLarge program.length programLimit)

/-- The byte at `address`. -/
def read (m : Memory) (address : Nat) : Except Fault UInt8 :=
  if h : address < 4096 then .ok m.bytes[address] else .error (.memoryOutOfBounds address)

/-- Puts a byte at `address`. -/
def write (m : Memory) (address : Nat) (byte : UInt8) : Except Fault Memory :=
  if h : address < 4096 then .ok ⟨m.bytes.set address byte⟩
  else .error (.memoryOutOfBounds address)

/-- The `count` bytes from `start` on. A range that leaves memory is refused for
its first address outside; an empty range may end at the very end of memory. -/
def slice (m : Memory) (start count : Nat) : Except Fault (List UInt8) :=
  if h : start + count ≤ 4096 then .ok (List.ofFn fun i : Fin count => m.bytes[start + i])
  else .error (.memoryOutOfBounds (max start memorySize))

/-- The two bytes at `address` and after it as one word, the first more significant. -/
def readWord (m : Memory) (address : Nat) : Except Fault UInt16 := do
  let high ← m.read address
  let low ← m.read (address + 1)
  return .ofNat (high.toNat * 256 + low.toNat)

theorem read_of_lt (m : Memory) {address : Nat} (h : address < 4096) :
    m.read address = .ok m.bytes[address] := by
  simp [read, h]

theorem read_image (program : List UInt8) {address : Nat} (h : address < 4096) :
    (image program).read address = .ok (imageByte program.toArray address) := by
  simp [read, image, h]

theorem read_write (m : Memory) {address : Nat} (h : address < 4096) (byte : UInt8) (other : Nat) :
    (m.write address byte).bind (fun m => m.read other) =
      if other = address then .ok byte else m.read other := by
  simp only [write, h, Except.bind, read]
  grind

/-- Of the bytes of memory a write changes the one at its address. -/
theorem read_of_write {m written : Memory} {address : Nat} {byte : UInt8}
    (h : m.write address byte = .ok written) (other : Nat) :
    written.read other = if other = address then .ok byte else m.read other := by
  by_cases inside : address < 4096
  · have read := m.read_write inside byte other
    rwa [h] at read
  · simp [write, inside] at h

end Memory

end Chip8
