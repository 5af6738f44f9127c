import Chip8.Register

/-!
# The register file

Sixteen byte registers V0 to VF, the 12-bit index register I, the program
counter and the two timers. VF doubles as the flag register. A register number
above VF is refused on reading and on writing.
-/

namespace Chip8
set_option autoImplicit false

/-- All registers of the machine. -/
structure RegisterFile where
  v : Vector UInt8 16
  index : Register 12
  pc : Register 16
  delay : UInt8
  sound : UInt8

namespace RegisterFile

/-- Every register zero. -/
def zero : RegisterFile :=
  { v := .replicate 16 0, index := .zero, pc := .zero, delay := 0, sound := 0 }

/-- The number of the register that instructions report a flag in. -/
def flagNumber : Nat := 0xF

/-- The byte in V`x`. -/
def read (r : RegisterFile) (x : Nat) : Except Fault UInt8 :=
  if h : x < 16 then .ok r.v[x] else .error (.registerOutOfRange x)

/-- Puts a byte into V`x`. -/
def write (r : RegisterFile) (x : Nat) (byte : UInt8) : Except Fault RegisterFile :=
  if h : x < 16 then .ok { r with v := r.v.set x byte } else .error (.registerOutOfRange x)

/-- Puts a number into V`x`. Of two grounds for refusal the register number is
named first, then the width. -/
def writeNat (r : RegisterFile) (x value : Nat) : Except Fault RegisterFile :=
  if h : x < 16 then do
    let byte ← Register.ofNat 8 value
    return { r with v := r.v.set x (.ofNat byte.value) }
  else .error (.registerOutOfRange x)

/-- Puts one or zero into VF. -/
def setFlag (r : RegisterFile) (on : Bool) : RegisterFile :=
  { r with v := r.v.set flagNumber (if on then 1 else 0) (by decide) }

/-- Puts an address into I. -/
def setIndex (r : RegisterFile) (address : Nat) : Except Fault RegisterFile :=
  return { r with index := ← Register.ofNat 12 address }

/-- Puts an address into the program counter. -/
def setPc (r : RegisterFile) (address : Nat) : Except Fault RegisterFile :=
  return { r with pc := ← Register.ofNat 16 address }

/-- Takes `periods` off both timers, which stop at zero. -/
def decay (r : RegisterFile) (periods : Nat) : RegisterFile :=
  { r with
    delay := .ofNat (r.delay.toNat - periods)
    sound := .ofNat (r.sound.toNat - periods) }

theorem read_of_lt (r : RegisterFile) {x : Nat} (h : x < 16) : r.read x = .ok r.v[x] := by
  simp [read, h]

theorem write_of_lt (r : RegisterFile) {x : Nat} (h : x < 16) (byte : UInt8) :
    r.write x byte = .ok { r with v := r.v.set x byte } := by
  simp [write, h]

theorem write_eq_ok_iff {r written : RegisterFile} {x : Nat} {byte : UInt8} :
    r.write x byte = .ok written ↔ ∃ h : x < 16, written = { r with v := r.v.set x byte } := by
  unfold write
  split
  · rename_i h
    simp [h, eq_comm]
  · rename_i h
    simp [h]

/-- Of the V registers a write changes the one that it names. -/
theorem read_of_write {r written : RegisterFile} {x : Nat} {byte : UInt8}
    (h : r.write x byte = .ok written) (other : Nat) :
    written.read other = if other = x then .ok byte else r.read other := by
  obtain ⟨known, rfl⟩ := write_eq_ok_iff.1 h
  unfold read
  by_cases same : other = x
  · subst same
    simp [known]
  · by_cases known' : other < 16
    · simp [known', same, Vector.getElem_set_ne, Ne.symm same]
    · simp [known', same]

theorem setIndex_eq_ok_iff {r written : RegisterFile} {address : Nat} :
    r.setIndex address = .ok written ↔
      ∃ h : address < Register.count 12, written = { r with index := ⟨address, h⟩ } := by
  unfold setIndex Register.ofNat
  split
  · rename_i h
    simp [h, bind, Except.bind, pure, Except.pure, eq_comm]
  · rename_i h
    simp [h, bind, Except.bind]

/-- A byte is never too wide. -/
theorem writeNat_toNat (r : RegisterFile) (x : Nat) (byte : UInt8) :
    r.writeNat x byte.toNat = r.write x byte := by
  have fits : byte.toNat < Register.count 8 := byte.toNat_lt
  simp only [writeNat, write, Register.ofNat, fits]
  split
  · simp [bind, Except.bind, pure, Except.pure]
  · rfl

end RegisterFile

end Chip8
