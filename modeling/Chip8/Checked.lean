import Chip8.CallStack
import Chip8.Clock
import Chip8.Keypad
import Chip8.Machine.Execute
import Chip8.Memory
import Chip8.RegisterFile
import Chip8.Screen.Frame

/-!
# Parts that watch their limits

The parts of the machine once more, as hardware has them: sums of 16 bits, arrays of fixed
length, a clock whose baseline must not run ahead. An operation that goes past a limit has no
result at all (`none`), which is not the same as being refused with a fault. The lemmas say
within which limits each operation has a result, and that it is the one that the part gives.
-/

namespace Chip8
set_option autoImplicit false

/-- The sum of two numbers of 16 bits, if it has 16 bits. -/
def checkedSum (a b : Nat) : Option Nat := if a + b < 65536 then some (a + b) else none

/-- A place in an array, if the array is that long. -/
def checkedPlace (length place : Nat) : Option Nat := if place < length then some place else none

/-- The array with another entry at a place, if the array is that long. -/
def checkedSet {α : Type} {n : Nat} (entries : Vector α n) (place : Nat) (entry : α) :
    Option (Vector α n) :=
  if h : place < n then some (entries.set place entry) else none

theorem checkedSum_of_lt {a b : Nat} (h : a + b < 65536) : checkedSum a b = some (a + b) :=
  if_pos h

example : checkedSum 0xFFFE 1 = some 0xFFFF ∧ checkedSum 0xFFFE 2 = none := by decide

theorem checkedPlace_of_lt {length place : Nat} (h : place < length) :
    checkedPlace length place = some place := if_pos h

theorem checkedSet_of_lt {α : Type} {n : Nat} (entries : Vector α n) {place : Nat} (entry : α)
    (h : place < n) : checkedSet entries place entry = some (entries.set place entry) := dif_pos h

namespace CallStack

/-- Opens a call: its return address goes into the slot after those in use. -/
def checkedPush (s : CallStack) (address : Nat) : Option (Except Fault CallStack) :=
  if s.size = capacity then some (.error .stackFull)
  else do
    let slot ← checkedPlace capacity s.size
    return .ok ⟨(s.toList.take slot ++ [address]).reverse⟩

/-- Closes the most recent call, whose return address is in the last slot in use. -/
def checkedPop (s : CallStack) : Option (Except Fault (Nat × CallStack)) :=
  if s.size = 0 then some (.error .stackEmpty)
  else do
    let slot ← checkedPlace capacity (s.size - 1)
    return .ok (s.toList.getD slot 0, ⟨(s.toList.take slot).reverse⟩)

variable {s : CallStack}

theorem checkedPush_eq (room : s.size ≤ capacity) (address : Nat) :
    s.checkedPush address = some (s.push address) := by
  unfold checkedPush push
  by_cases full : s.size = capacity
  · rw [if_pos full, if_neg (by omega)]
  · have free : s.size < capacity := by omega
    have used : s.returns.reverse.take s.size = s.returns.reverse :=
      List.take_of_length_le (by simp [size])
    rw [if_neg full, if_pos free, checkedPlace_of_lt free]
    simp [toList, used]

theorem checkedPop_eq (room : s.size ≤ capacity) : s.checkedPop = some s.pop := by
  obtain ⟨_ | ⟨address, rest⟩⟩ := s
  · rfl
  · have inside : rest.length < capacity := room
    simp [checkedPop, pop, toList, size, checkedPlace_of_lt inside]

end CallStack

namespace Frame

/-- Whether a point is on. -/
def checkedGet (f : Frame) (x y : Nat) : Option Bool := f.points[place x y]?

/-- Turns a point on or off. -/
def checkedSet (f : Frame) (x y : Nat) (on : Bool) : Option Frame := do
  if (← f.checkedGet x y) = on then return f
  else return { points := ← Chip8.checkedSet f.points (place x y) on, stale := true }

/-- Inverts one point, remembering whether any point inverted so far was on. -/
def checkedInvert (drawn : Bool × Frame) (point : Nat × Nat) : Option (Bool × Frame) := do
  let was ← drawn.2.checkedGet point.1 point.2
  return (drawn.1 || was, ← drawn.2.checkedSet point.1 point.2 !was)

/-- Draws a sprite. True if a point that was on got switched off. -/
def checkedPaint (f : Frame) (x y : UInt8) (sprite : List UInt8) : Option (Bool × Frame) :=
  (spritePoints x y sprite).foldlM checkedInvert (false, f)

theorem checkedGet_eq (f : Frame) (x y : Nat) : f.checkedGet x y = some (f.get x y) :=
  Vector.getElem?_eq_getElem (place_lt x y)

theorem checkedSet_eq (f : Frame) (x y : Nat) (on : Bool) :
    f.checkedSet x y on = some (f.set x y on) := by
  simp only [checkedSet, checkedGet_eq, checkedSet_of_lt f.points on (place_lt x y), set]
  by_cases same : f.get x y = on
  · simp [same]
  · simp [same]

theorem checkedInvert_eq (drawn : Bool × Frame) (point : Nat × Nat) :
    checkedInvert drawn point = some (invertPoint drawn point) := by
  simp only [checkedInvert, checkedGet_eq, checkedSet_eq]
  rfl

theorem checkedPaint_eq (f : Frame) (x y : UInt8) (sprite : List UInt8) :
    f.checkedPaint x y sprite = some (paint f x y sprite) := by
  have inverts : checkedInvert = fun drawn point => some (invertPoint drawn point) :=
    funext fun drawn => funext (checkedInvert_eq drawn)
  rw [checkedPaint, inverts]
  exact List.foldlM_pure

end Frame

namespace RegisterFile

/-- The byte in V`x`. -/
def checkedRead (r : RegisterFile) (x : Nat) : Option UInt8 := r.v[x]?

/-- Puts a byte into V`x`. -/
def checkedWrite (r : RegisterFile) (x : Nat) (byte : UInt8) : Option RegisterFile := do
  return { r with v := ← checkedSet r.v x byte }

/-- Puts one or zero into VF. -/
def checkedSetFlag (r : RegisterFile) (on : Bool) : Option RegisterFile :=
  r.checkedWrite flagNumber (if on then 1 else 0)

/-- Puts a flag into VF, if there is one to report. -/
def checkedReport (r : RegisterFile) : Option Bool → Option RegisterFile
  | some on => r.checkedSetFlag on
  | none => some r

/-- An operation and its flag on V`x` and V`y`. -/
def checkedArithmetic (r : RegisterFile) (op : Arithmetic) (x y : Nat) : Option RegisterFile := do
  let a ← bif op.readsTarget then r.checkedRead x else some 0
  let b ← r.checkedRead y
  let written ← r.checkedWrite x (op.result a b)
  written.checkedReport (op.flag? a b)

variable (r : RegisterFile)

theorem checkedRead_of_lt {x : Nat} (h : x < 16) : r.checkedRead x = some r.v[x] :=
  Vector.getElem?_eq_getElem h

theorem checkedWrite_of_lt {x : Nat} (h : x < 16) (byte : UInt8) :
    r.checkedWrite x byte = some { r with v := r.v.set x byte } := by
  rw [checkedWrite, checkedSet_of_lt r.v byte h]
  rfl

theorem checkedSetFlag_eq (on : Bool) : r.checkedSetFlag on = some (r.setFlag on) :=
  r.checkedWrite_of_lt (by decide) _

theorem checkedReport_eq (flag : Option Bool) : r.checkedReport flag = some (r.report flag) := by
  cases flag with
  | none => rfl
  | some on => exact r.checkedSetFlag_eq on

end RegisterFile

namespace Keypad

/-- Presses a key. -/
def checkedPress (k : Keypad) (key : UInt8) : Option (Except Fault Keypad) :=
  if 16 ≤ key.toNat then some (.error (.invalidKey key.toNat))
  else do
    let held ← checkedSet k.held key.toNat true
    return .ok { held, last := some key, wait := k.wait.press key }

/-- Lets a key go. -/
def checkedRelease (k : Keypad) (key : UInt8) : Option (Except Fault Keypad) :=
  if 16 ≤ key.toNat then some (.error (.invalidKey key.toNat))
  else return .ok { k with held := ← checkedSet k.held key.toNat false }

/-- Whether a key is held. -/
def checkedIsHeld (k : Keypad) (key : UInt8) : Option Bool := k.held[key.toNat]?

variable (k : Keypad)

theorem checkedPress_eq (key : UInt8) : k.checkedPress key = some (k.press key) := by
  unfold checkedPress press
  by_cases h : key.toNat < 16
  · rw [dif_pos h, if_neg (by omega), checkedSet_of_lt k.held true h]
    rfl
  · rw [dif_neg h, if_pos (by omega)]

theorem checkedRelease_eq (key : UInt8) : k.checkedRelease key = some (k.release key) := by
  unfold checkedRelease release
  by_cases h : key.toNat < 16
  · rw [dif_pos h, if_neg (by omega), checkedSet_of_lt k.held false h]
    rfl
  · rw [dif_neg h, if_pos (by omega)]

end Keypad

namespace Memory

/-- A memory of zeros. -/
def zeros : Memory := ⟨.replicate 4096 0⟩

/-- Copies bytes into memory from `start` on, if memory has room for them there. -/
def checkedCopy (m : Memory) (start : Nat) (bytes : List UInt8) : Option Memory :=
  if start + bytes.length ≤ 4096 then
    some ⟨.ofFn fun i =>
      if start ≤ i ∧ i < start + bytes.length then bytes.getD (i - start) 0 else m.bytes[i]⟩
  else none

/-- A memory that holds the font alone. -/
def checkedBlank : Option Memory := zeros.checkedCopy fontStart font.toList

/-- The memory a program starts with, refused if the program is too large. -/
def checkedLoad (program : List UInt8) : Option (Except Fault Memory) :=
  if programLimit < program.length then
    some (.error (.programTooLarge program.length programLimit))
  else do
    let blank ← checkedBlank
    return .ok (← blank.checkedCopy programStart program)

theorem checkedCopy_of_le (m : Memory) {start : Nat} {bytes : List UInt8}
    (h : start + bytes.length ≤ 4096) :
    m.checkedCopy start bytes = some ⟨.ofFn fun i =>
      if start ≤ i ∧ i < start + bytes.length then bytes.getD (i - start) 0 else m.bytes[i]⟩ :=
  if_pos h

theorem eq_of_bytes {m m' : Memory} (h : ∀ i, (h : i < 4096) → m.bytes[i] = m'.bytes[i]) :
    m = m' := by
  cases m
  cases m'
  exact congrArg mk (Vector.ext h)

theorem checkedBlank_eq : checkedBlank = some blank := by
  have room : fontStart + font.toList.length ≤ 4096 := by simp [fontStart]
  rw [checkedBlank, checkedCopy_of_le zeros room]
  refine congrArg some (eq_of_bytes fun i h => ?_)
  have starts : fontStart = 0x50 ∧ programStart = 0x200 := ⟨rfl, rfl⟩
  simp only [zeros, blank, image, imageByte, Vector.getElem_ofFn, Vector.length_toList]
  by_cases inFont : fontStart ≤ i ∧ i < fontStart + 80
  · rw [if_pos inFont, if_neg (by omega), if_pos inFont.1]
    simp
  · rw [if_neg inFont]
    split
    · simp
    · split
      · have behind : 80 ≤ i - fontStart := by omega
        simp [Vector.getElem?_eq_none behind]
      · simp

theorem checkedLoad_eq (program : List UInt8) : checkedLoad program = some (load program) := by
  unfold checkedLoad load
  by_cases large : programLimit < program.length
  · rw [if_pos large, if_neg (by omega)]
  · have room : programStart + program.length ≤ 4096 := by
      simp only [programLimit, memorySize, programStart] at *
      omega
    rw [if_neg large, if_pos (by omega), checkedBlank_eq]
    simp only [Option.bind_eq_bind, Option.bind_some, checkedCopy_of_le blank room]
    refine congrArg (fun memory => some (Except.ok memory)) (eq_of_bytes fun i h => ?_)
    simp only [blank, image, imageByte, Vector.getElem_ofFn]
    by_cases inProgram : programStart ≤ i
    · by_cases ends : i < programStart + program.length
      · simp [inProgram, ends]
      · have behind : program.length ≤ i - programStart := by omega
        simp [inProgram, ends, List.getElem?_eq_none behind]
    · simp [inProgram]

end Memory

namespace Clock

/-- The whole periods since the baseline, which moves on by as many periods, but not past
`now`. -/
def checkedSync (c : Clock) (now : Int) : Option (Nat × Clock) :=
  match c.baseline with
  | none => some (0, rebase now)
  | some start =>
    let periods := periodsBetween start now
    if periods = 0 then some (0, c)
    else if start + period * periods ≤ now then
      some (periods, rebase (start + period * periods))
    else none

theorem checkedSync_eq (c : Clock) (now : Int) : c.checkedSync now = some (c.sync now) := by
  obtain ⟨_ | start⟩ := c
  · rfl
  · simp only [checkedSync, sync]
    by_cases none : periodsBetween start now = 0
    · simp [none, rebase]
    · have below := baseline_le start now (Nat.pos_of_ne_zero none)
      simp [none, below]

end Clock

end Chip8
