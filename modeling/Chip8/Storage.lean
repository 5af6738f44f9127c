import Chip8.RegisterFile
import Chip8.Screen.Frame

/-!
# Parts as they are stored

The registers and the frame once more, in cells that hold any number and in an array of any
length. Nothing here keeps a number small but the check that is made before it is put into a
cell, and some ways into a cell make no check at all. A number that is read is cut to a byte.
-/

namespace Chip8
set_option autoImplicit false

/-- Something done to a state that may be refused. What was changed before stays changed. -/
abbrev Change (σ α : Type) := EStateM Fault σ α

namespace Change

variable {σ τ α : Type}

/-- The state that is left, be the change refused or not. -/
def leaves (change : Change σ α) (s : σ) : σ :=
  match change s with
  | .ok _ after | .error _ after => after

/-- Whether nothing is changed if the change is refused. -/
def AllOrNothing (change : Change σ α) : Prop :=
  ∀ s fault after, change s = .error fault after → after = s

/-- A change that is made as a whole or not at all. -/
def whole (change : σ → Except Fault (α × σ)) : Change σ α := fun s =>
  match change s with
  | .ok (a, after) => .ok a after
  | .error fault => .error fault s

/-- A change that is made as a whole or not at all and answers nothing. -/
def renew (change : σ → Except Fault σ) : Change σ Unit :=
  whole fun s => return ((), ← change s)

/-- A change that, if it is refused, has something done to the state that it leaves. -/
def onRefusal (change : Change σ α) (after : Fault → σ → σ) : Change σ α := fun s =>
  match change s with
  | .ok a left => .ok a left
  | .error fault left => .error fault (after fault left)

/-- A change of one part of a state. -/
def onPart (part : σ → τ) (replace : τ → σ → σ) (change : Change τ α) : Change σ α := fun s =>
  match change (part s) with
  | .ok a after => .ok a (replace after s)
  | .error fault after => .error fault (replace after s)

variable {β : Type}

theorem bind_run (change : Change σ α) (next : α → Change σ β) (s : σ) : (change >>= next) s =
    match change s with
    | .ok a after => next a after
    | .error fault after => .error fault after := by
  simp only [bind, EStateM.bind]
  cases change s <;> rfl

theorem get_bind (next : σ → Change σ β) (s : σ) : (get >>= next) s = next s s := rfl

theorem modify_bind (f : σ → σ) (next : Unit → Change σ β) (s : σ) :
    (modify f >>= next) s = next () (f s) := rfl

theorem ofExcept_bind (outcome : Except Fault α) (next : α → Change σ β) (s : σ) :
    (ofExcept outcome >>= next) s =
      match outcome with
      | .ok a => next a s
      | .error fault => .error fault s := by
  cases outcome <;> rfl

/-- What is done at last is done to whatever state is left. -/
theorem tryFinally_modify_run (change : Change σ α) (f : σ → σ) (s : σ) :
    tryFinally change (modify f) s =
      match change s with
      | .ok a after => .ok a (f after)
      | .error fault after => .error fault (f after) := by
  simp only [tryFinally, tryFinally', Functor.map, EStateM.map]
  cases change s <;> rfl

end Change

/-- Puts a number into a cell. One that needs more than `bits` bits is refused. -/
def putCell (bits value : Nat) : Change Nat Unit := do
  if Register.greatest bits < value then throw (.registerOverflow value bits)
  set value

/-- All registers of the machine, each in a cell of its own. -/
structure StoredRegisters where
  v : Vector Nat 16
  index : Nat
  pc : Nat
  delay : Nat
  sound : Nat

namespace StoredRegisters

/-- Every register zero. -/
def zero : StoredRegisters :=
  { v := .replicate 16 0, index := 0, pc := 0, delay := 0, sound := 0 }

/-- The byte in V`x`: the last eight bits of its cell. -/
def read (r : StoredRegisters) (x : Nat) : Except Fault UInt8 :=
  if h : x < 16 then .ok (.ofNat r.v[x]) else .error (.registerOutOfRange x)

/-- The delay timer: the last eight bits of its cell. -/
def delayByte (r : StoredRegisters) : UInt8 := .ofNat r.delay

/-- The sound timer: the last eight bits of its cell. -/
def soundByte (r : StoredRegisters) : UInt8 := .ofNat r.sound

/-- Puts a number into V`x`. -/
def put (x value : Nat) : Change StoredRegisters Unit :=
  if h : x < 16 then
    .onPart (fun r => r.v[x]) (fun cell r => { r with v := r.v.set x cell }) (putCell 8 value)
  else throw (.registerOutOfRange x)

/-- Puts one or zero into VF. -/
def setFlag (on : Bool) : Change StoredRegisters Unit :=
  put RegisterFile.flagNumber (if on then 1 else 0)

/-- Puts an address into I. -/
def setIndex (address : Nat) : Change StoredRegisters Unit :=
  .onPart (·.index) (fun index r => { r with index }) (putCell 12 address)

/-- Puts an address into the program counter. -/
def setPc (address : Nat) : Change StoredRegisters Unit :=
  .onPart (·.pc) (fun pc r => { r with pc }) (putCell 16 address)

/-- Sets the delay timer, without a check. -/
def setDelay (value : UInt8) (r : StoredRegisters) : StoredRegisters :=
  { r with delay := value.toNat }

/-- Sets the sound timer, without a check. -/
def setSound (value : UInt8) (r : StoredRegisters) : StoredRegisters :=
  { r with sound := value.toNat }

/-- Takes `periods` off both timers, which stop at zero. No more than a byte is ever taken off. -/
def decay (periods : Nat) (r : StoredRegisters) : StoredRegisters :=
  let lost := min periods 0xFF
  let r := r.setDelay (.ofNat (r.delayByte.toNat - lost))
  r.setSound (.ofNat (r.soundByte.toNat - lost))

end StoredRegisters

/-- Registers as they are stored. -/
def RegisterFile.stored (r : RegisterFile) : StoredRegisters :=
  { v := r.v.map UInt8.toNat
    index := r.index.value
    pc := r.pc.value
    delay := r.delay.toNat
    sound := r.sound.toNat }

/-- The points row by row, as many as there are, and whether a copy taken earlier may be out of
date. -/
structure StoredFrame where
  points : Array Bool
  stale : Bool

namespace StoredFrame

/-- All points off, never shown to anybody. -/
def blank : StoredFrame := { points := .replicate 2048 false, stale := true }

/-- Whether a point is on. -/
def get (f : StoredFrame) (x y : Nat) : Bool := f.points.getD (Frame.place x y) false

/-- Turns a point on or off. -/
def set (f : StoredFrame) (x y : Nat) (on : Bool) : StoredFrame :=
  if f.get x y = on then f
  else { points := f.points.setIfInBounds (Frame.place x y) on, stale := true }

/-- A copy of the frame if it changed since the last copy was taken. -/
def take (f : StoredFrame) : Option StoredFrame × StoredFrame :=
  if f.stale then (some { f with stale := false }, { f with stale := false }) else (none, f)

instance : Screen StoredFrame where
  read f x y := (f.get x y, f)
  write := set
  clear _ := blank

end StoredFrame

/-- A frame as it is stored. -/
def Frame.stored (f : Frame) : StoredFrame := { points := f.points.toArray, stale := f.stale }

end Chip8
