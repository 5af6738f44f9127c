import Chip8.Instruction.Encoding
import Chip8.Proofs.Footprint

/-!
# When an instruction is refused

`Machine.Refuses` lists, instruction by instruction, on which machines execution fails and
with which fault, and `execute_error_iff` says that the list is exact for instructions whose
operands fit. A register number of one digit never fails; what can fail is the call stack, an
address outside memory and an index that would not fit.
-/

namespace Chip8
set_option autoImplicit false

/-- A sweep whose changes are refused by their items alone is refused by the first item
that is refused. -/
theorem sweep_snd {σ α : Type} {change : σ → α → Except Fault σ} {refusal : α → Option Fault}
    {s : σ} {items : List α}
    (refused : ∀ s, ∀ item ∈ items, ∀ fault,
      change s item = .error fault ↔ refusal item = some fault) :
    (sweep change s items).2 = match items.findSome? refusal with
      | none => .ok ()
      | some fault => .error fault := by
  induction items generalizing s with
  | nil => rfl
  | cons item rest ih =>
    have here := refused s item List.mem_cons_self
    unfold sweep
    cases e : change s item with
    | error fault =>
      have := (here fault).1 e
      simp [this]
    | ok after =>
      have none : refusal item = none := by
        rw [Option.eq_none_iff_forall_ne_some]
        intro fault h
        rw [(here fault).2 h] at e
        cases e
      simp only [List.findSome?_cons, none]
      exact ih fun s item' h => refused s item' (List.mem_cons_of_mem _ h)

/-- The fault of an access to `address`, if it lies outside memory. -/
def outside (address : Nat) : Option Fault :=
  if address < memorySize then none else some (.memoryOutOfBounds address)

theorem Memory.write_eq_error_iff {memory : Memory} {address : Nat} {byte : UInt8}
    {fault : Fault} :
    memory.write address byte = .error fault ↔ outside address = some fault := by
  unfold write outside memorySize
  split <;> simp_all

theorem Memory.read_eq_error_iff {memory : Memory} {address : Nat} {fault : Fault} :
    memory.read address = .error fault ↔ outside address = some fault := by
  unfold read outside memorySize
  split <;> simp_all

theorem Memory.slice_eq_error_iff {memory : Memory} {start count : Nat} {fault : Fault}
    (h : start ≤ memorySize) : memory.slice start count = .error fault ↔
      memorySize < start + count ∧ fault = .memoryOutOfBounds memorySize := by
  unfold slice
  rw [Nat.max_eq_right h]
  rw [memorySize] at *
  split
  · simp; omega
  · simp [eq_comm]; omega

/-- Going up from `start`, the first address outside memory is its size. -/
theorem findSome?_outside {start count : Nat} (h : start ≤ memorySize) :
    (List.range count).findSome? (fun i => outside (start + i)) =
      if start + count ≤ memorySize then none else some (.memoryOutOfBounds memorySize) := by
  induction count with
  | zero => simp [h]
  | succ count ih =>
    rw [List.range_succ, List.findSome?_append, ih]
    by_cases fits : start + count ≤ memorySize
    · by_cases last : start + (count + 1) ≤ memorySize
      · simp [fits, last, outside]; omega
      · have full : start + count = memorySize := by omega
        simp [last, outside, full]
    · have last : ¬ start + (count + 1) ≤ memorySize := by omega
      simp [fits, last]

/-- A sweep over consecutive addresses succeeds if all of them lie in memory. -/
theorem sweep_addresses {σ α : Type} {change : σ → α → Except Fault σ} {s : σ} {items : List α}
    {start count : Nat} (place : α → Nat) (h : start ≤ memorySize)
    (places : items.map place = List.range count)
    (refused : ∀ s, ∀ item ∈ items, ∀ fault,
      change s item = .error fault ↔ outside (start + place item) = some fault) :
    (sweep change s items).2 =
      if start + count ≤ memorySize then .ok () else .error (.memoryOutOfBounds memorySize) := by
  have first : items.findSome? (fun item => outside (start + place item)) =
      (List.range count).findSome? fun i => outside (start + i) := by
    rw [← places, List.findSome?_map]
    rfl
  rw [sweep_snd refused, first, findSome?_outside h]
  by_cases fits : start + count ≤ memorySize <;> simp [fits]

namespace RegisterFile

theorem setIndex_eq_error_iff {r : RegisterFile} {address : Nat} {fault : Fault} :
    r.setIndex address = .error fault ↔
      memorySize ≤ address ∧ fault = .registerOverflow address 12 := by
  rw [← show Register.count 12 = memorySize from rfl, ← Register.ofNat_eq_error_iff]
  unfold setIndex
  cases Register.ofNat 12 address <;> simp

theorem exists_read (r : RegisterFile) {x : UInt8} (h : Instruction.IsDigit x) :
    ∃ byte, r.read x.toNat = .ok byte :=
  ⟨_, r.read_of_lt h⟩

/-- Operands are read as they stood, also one that the operation does not look at. -/
theorem arithmetic_of_lt (r : RegisterFile) (op : Arithmetic) {x y : Nat} (hx : x < 16)
    (hy : y < 16) : r.arithmetic op x y =
      .ok (({ r with v := r.v.set x (op.result r.v[x] r.v[y]) } : RegisterFile).report
        (op.flag? r.v[x] r.v[y])) := by
  cases op <;>
    simp [arithmetic, Arithmetic.readsTarget, r.read_of_lt, r.write_of_lt, hx, hy] <;> rfl

theorem exists_arithmetic (r : RegisterFile) (op : Arithmetic) {x y : UInt8}
    (hx : Instruction.IsDigit x) (hy : Instruction.IsDigit y) :
    ∃ written, r.arithmetic op x.toNat y.toNat = .ok written :=
  ⟨_, r.arithmetic_of_lt op hx hy⟩

end RegisterFile

/-- The low four bits of a byte, as a number. -/
theorem toNat_and_digit (byte : UInt8) : (byte &&& 0xF).toNat = byte.toNat % 16 := by
  rw [UInt8.toNat_and]
  exact Nat.and_two_pow_sub_one_eq_mod byte.toNat 4

theorem Keypad.exists_isHeld (k : Keypad) (byte : UInt8) :
    ∃ held, k.isHeld (byte &&& 0xF) = .ok held := by
  have small : (byte &&& 0xF).toNat < 16 := by
    rw [toNat_and_digit]
    exact Nat.mod_lt _ (by decide)
  exact ⟨_, dif_pos small⟩

theorem glyphAddress_lt (digit : UInt8) : glyphAddress digit < memorySize := by
  simp only [glyphAddress, fontStart, memorySize]
  omega

namespace Machine

/-- When an instruction is refused, and with which fault. All other instructions succeed. -/
def Refuses (m : Machine) : Instruction → Fault → Prop
  | .ret, fault => m.stack.size = 0 ∧ fault = .stackEmpty
  | .call _, fault => m.stack.size = CallStack.capacity ∧ fault = .stackFull
  | .draw _ _ rows, fault =>
    memorySize < m.index + rows.toNat ∧ fault = .memoryOutOfBounds memorySize
  | .increaseIndex x, fault => ∃ byte, m.registers.read x.toNat = .ok byte ∧
    0xFFF < m.index + byte.toNat ∧ fault = .registerOverflow (m.index + byte.toNat) 12
  | .storeDecimal _, fault => 0xFFF < m.index + 2 ∧ fault = .memoryOutOfBounds memorySize
  | .storeRegisters x, fault | .loadRegisters x, fault =>
    0xFFF < m.index + x.toNat ∧ fault = .memoryOutOfBounds memorySize ∨
      m.index + x.toNat = 0xFFF ∧ fault = .registerOverflow memorySize 12
  | _, _ => False

theorem index_lt (m : Machine) : m.index < memorySize := m.registers.index.fits

theorem exists_answer (m : Machine) {test : Test} {expected : Bool}
    (h : (Instruction.skip test expected).IsEncodable) : ∃ answer, m.answer test = .ok answer := by
  cases test with
  | byte x value =>
    obtain ⟨a, readX⟩ := m.registers.exists_read (x := x) h
    exact ⟨a == value, by simp [answer, readX]⟩
  | register x y =>
    obtain ⟨a, readX⟩ := m.registers.exists_read h.1
    obtain ⟨b, readY⟩ := m.registers.exists_read h.2
    exact ⟨a == b, by simp [answer, readX, readY]⟩
  | key x =>
    obtain ⟨a, readX⟩ := m.registers.exists_read (x := x) h
    obtain ⟨held, isHeld⟩ := m.keypad.exists_isHeld a
    exact ⟨held, by simp [answer, readX, isHeld]⟩

theorem whole_snd (m : Machine) (effect : Except Fault (Machine × Progress)) :
    (m.whole effect).2 = effect.map Prod.snd := by
  cases effect <;> rfl

theorem changeRegisters_snd (m : Machine) (registers : Except Fault RegisterFile) :
    (m.changeRegisters registers).2 = registers.map fun _ => .next := by
  cases registers <;> rfl

/-- A transfer is refused by memory, or at its end by the index register. -/
theorem finishTransfer_error_iff {m : Machine} {x : UInt8} {fault : Fault}
    {outcome : Except Fault Unit} (h : outcome = if m.index + (x.toNat + 1) ≤ memorySize then .ok ()
      else .error (.memoryOutOfBounds memorySize)) :
    (m.finishTransfer x outcome).2 = .error fault ↔
      0xFFF < m.index + x.toNat ∧ fault = .memoryOutOfBounds memorySize ∨
        m.index + x.toNat = 0xFFF ∧ fault = .registerOverflow memorySize 12 := by
  subst h
  by_cases fits : m.index + (x.toNat + 1) ≤ memorySize
  · simp only [fits, if_true, finishTransfer, changeRegisters_snd, map_eq_error_iff,
      RegisterFile.setIndex_eq_error_iff]
    rw [memorySize] at *
    constructor
    · rintro ⟨full, rfl⟩
      have last : m.index + x.toNat = 0xFFF := by omega
      exact .inr ⟨last, by rw [last]⟩
    · rintro (⟨far, -⟩ | ⟨last, rfl⟩)
      · omega
      · exact ⟨by omega, by rw [last]⟩
  · simp only [fits, if_false, finishTransfer, Except.error.injEq]
    rw [memorySize] at *
    constructor
    · rintro rfl
      exact .inl ⟨by omega, rfl⟩
    · rintro (⟨-, rfl⟩ | ⟨last, -⟩)
      · rfl
      · omega

theorem digitsToMemory_snd (m : Machine) (byte : UInt8) :
    (m.digitsToMemory byte).2 =
      if m.index + 3 ≤ memorySize then .ok () else .error (.memoryOutOfBounds memorySize) :=
  sweep_addresses Prod.snd (Nat.le_of_lt m.index_lt) rfl fun _ _ _ _ => Memory.write_eq_error_iff

theorem lt_of_mem_transferred {x : UInt8} {r : Nat} (h : Instruction.IsDigit x)
    (hr : r ∈ transferred x) : r < 16 := by
  have := List.mem_range.1 hr
  rw [Instruction.IsDigit] at h
  omega

theorem registersToMemory_snd (m : Machine) {x : UInt8} (h : Instruction.IsDigit x) :
    (m.registersToMemory x).2 =
      if m.index + (x.toNat + 1) ≤ memorySize then .ok ()
      else .error (.memoryOutOfBounds memorySize) := by
  refine sweep_addresses id (Nat.le_of_lt m.index_lt) (List.map_id _) ?_
  intro memory r hr fault
  rw [m.registers.read_of_lt (lt_of_mem_transferred h hr)]
  exact Memory.write_eq_error_iff

theorem memoryToRegisters_snd (m : Machine) {x : UInt8} (h : Instruction.IsDigit x) :
    (m.memoryToRegisters x).2 =
      if m.index + (x.toNat + 1) ≤ memorySize then .ok ()
      else .error (.memoryOutOfBounds memorySize) := by
  refine sweep_addresses id (Nat.le_of_lt m.index_lt) (List.map_id _) ?_
  intro registers r hr fault
  simp [bind_eq_error_iff, registers.write_of_lt (lt_of_mem_transferred h hr),
    Memory.read_eq_error_iff]

theorem storeDecimal_error_iff {m : Machine} {x : UInt8} {fault : Fault}
    (h : Instruction.IsDigit x) :
    (m.storeDecimal x).2 = .error fault ↔
      0xFFF < m.index + 2 ∧ fault = .memoryOutOfBounds memorySize := by
  obtain ⟨byte, readX⟩ := m.registers.exists_read h
  simp only [storeDecimal, readX, map_eq_error_iff, digitsToMemory_snd]
  rw [memorySize]
  split
  · simp; omega
  · simp [eq_comm]; omega

theorem storeRegisters_error_iff {m : Machine} {x : UInt8} {fault : Fault}
    (h : Instruction.IsDigit x) :
    (m.storeRegisters x).2 = .error fault ↔
      0xFFF < m.index + x.toNat ∧ fault = .memoryOutOfBounds memorySize ∨
        m.index + x.toNat = 0xFFF ∧ fault = .registerOverflow memorySize 12 :=
  finishTransfer_error_iff (m.registersToMemory_snd h)

theorem loadRegisters_error_iff {m : Machine} {x : UInt8} {fault : Fault}
    (h : Instruction.IsDigit x) :
    (m.loadRegisters x).2 = .error fault ↔
      0xFFF < m.index + x.toNat ∧ fault = .memoryOutOfBounds memorySize ∨
        m.index + x.toNat = 0xFFF ∧ fault = .registerOverflow memorySize 12 := by
  have index : (m.withRegisters (m.memoryToRegisters x).1).index = m.index := by
    obtain ⟨v, loaded⟩ := m.memoryToRegisters_v x
    rw [loaded]
    rfl
  have whole := m.memoryToRegisters_snd h
  rw [← index] at whole ⊢
  exact finishTransfer_error_iff whole

/-- Of the instructions whose operands fit, those listed are refused and no others. -/
theorem execute_error_iff {m : Machine} {i : Instruction} {fault : Fault} (fits : i.IsEncodable)
    (room : m.stack.size ≤ CallStack.capacity) :
    (m.execute i).2 = .error fault ↔ m.Refuses i fault := by
  cases i with
  | system address | clear | jump target => simp [execute, Refuses]
  | ret =>
    simp only [execute, whole_snd, map_eq_error_iff, Refuses, CallStack.pop, CallStack.size]
    cases m.stack.returns <;> simp [eq_comm]
  | call target =>
    simp only [execute, whole_snd, map_eq_error_iff, Refuses, CallStack.push]
    split
    · simp; omega
    · simp [eq_comm]; omega
  | skip test expected =>
    obtain ⟨answer, h⟩ := m.exists_answer fits
    simp [execute, whole_snd, map_eq_error_iff, Refuses, h]
  | set x value | readDelay x | random x mask =>
    have hx : x.toNat < 16 := fits
    simp [execute, changeRegisters_snd, map_eq_error_iff, Refuses, RegisterFile.write_of_lt _ hx]
  | increase x value =>
    have hx : x.toNat < 16 := fits
    simp [execute, changeRegisters_snd, map_eq_error_iff, Refuses, RegisterFile.write_of_lt _ hx,
      RegisterFile.read_of_lt _ hx]
  | arithmetic op x y =>
    obtain ⟨written, h⟩ := m.registers.exists_arithmetic op fits.1 fits.2
    simp [execute, changeRegisters_snd, map_eq_error_iff, Refuses, h]
  | setIndex address =>
    have small : address.toNat < memorySize := fits
    simp only [execute, changeRegisters_snd, map_eq_error_iff, Refuses,
      RegisterFile.setIndex_eq_error_iff, iff_false]
    omega
  | jumpOffset base =>
    simp [execute, whole_snd, map_eq_error_iff, Refuses, RegisterFile.read]
  | draw x y rows =>
    obtain ⟨a, readX⟩ := m.registers.exists_read fits.1
    obtain ⟨b, readY⟩ := m.registers.exists_read fits.2.1
    simp [execute, draw, whole_snd, map_eq_error_iff, Refuses, drawSprite, readX, readY,
      bind_eq_error_iff, Memory.slice_eq_error_iff (Nat.le_of_lt m.index_lt)]
  | awaitKey x | setDelay x | setSound x =>
    obtain ⟨a, readX⟩ := m.registers.exists_read (x := x) fits
    simp [execute, whole_snd, changeRegisters_snd, map_eq_error_iff, Refuses, readX]
  | increaseIndex x =>
    obtain ⟨a, readX⟩ := m.registers.exists_read (x := x) fits
    simp only [execute, changeRegisters_snd, map_eq_error_iff, Refuses, readX, ok_bind,
      RegisterFile.setIndex_eq_error_iff, Except.ok.injEq, exists_eq_left']
    rw [memorySize, Nat.lt_iff_add_one_le]
  | pointGlyph x =>
    obtain ⟨a, readX⟩ := m.registers.exists_read (x := x) fits
    have small := glyphAddress_lt a
    simp only [execute, changeRegisters_snd, map_eq_error_iff, Refuses, readX, ok_bind,
      RegisterFile.setIndex_eq_error_iff, iff_false]
    omega
  | storeDecimal x => exact storeDecimal_error_iff fits
  | storeRegisters x => exact storeRegisters_error_iff fits
  | loadRegisters x => exact loadRegisters_error_iff fits

end Machine

end Chip8
