import Chip8.Proofs.Timing

/-!
# How far an instruction reaches

Part by part, the machine after an instruction against the machine before it, whether the
instruction succeeds or fails and whatever its operands are. `Machine.Footprint` names the parts an
instruction may touch; here the registers and bytes within a part are told apart as well
(`Instruction.TouchesV`, `Instruction.TouchesByte`). What lies outside stands: `execute_confined`.
-/

namespace Chip8
set_option autoImplicit false

/-- Whether an operation reports a flag. -/
def Arithmetic.Reports : Arithmetic → Prop
  | add | subtract | shiftRight | subtractFrom | shiftLeft => True
  | copy | or | and | xor => False

theorem Arithmetic.reports_of_flag? {op : Arithmetic} {a b : UInt8} {on : Bool}
    (flag : op.flag? a b = some on) : op.Reports := by
  cases op with
  | copy | or | and | xor => cases flag
  | add | subtract | shiftRight | subtractFrom | shiftLeft => trivial

namespace Instruction

/-- Whether an instruction may change V`r`. -/
def TouchesV : Instruction → Nat → Prop
  | .set x _, r | .increase x _, r | .random x _, r | .readDelay x, r => r = x.toNat
  | .arithmetic op x _, r => r = x.toNat ∨ op.Reports ∧ r = RegisterFile.flagNumber
  | .draw _ _ _, r => r = RegisterFile.flagNumber
  | .loadRegisters x, r => r ≤ x.toNat
  | _, _ => False

/-- Whether an instruction may change the byte at an address while I holds `index`. -/
def TouchesByte (index : Nat) : Instruction → Nat → Prop
  | .storeDecimal _, address => index ≤ address ∧ address < index + 3
  | .storeRegisters x, address => index ≤ address ∧ address ≤ index + x.toNat
  | _, _ => False

/-- Whether an instruction may change I. -/
def TouchesIndex : Instruction → Prop
  | .setIndex _ | .increaseIndex _ | .pointGlyph _ | .storeRegisters _ | .loadRegisters _ => True
  | _ => False

end Instruction

namespace RegisterFile

variable {r written : RegisterFile} {x y other : Nat}

theorem read_of_write_ne {byte : UInt8} (h : r.write x byte = .ok written) (apart : other ≠ x) :
    written.read other = r.read other := by
  rw [read_of_write h, if_neg apart]

/-- A flag is written like any other byte, to a register that exists. -/
theorem read_setFlag_ne (r : RegisterFile) (on : Bool) (apart : other ≠ flagNumber) :
    (r.setFlag on).read other = r.read other :=
  read_of_write_ne (r.write_of_lt (by decide : flagNumber < 16) _) apart

theorem read_arithmetic_ne {op : Arithmetic} (h : r.arithmetic op x y = .ok written)
    (apart : other ≠ x) (silent : op.Reports → other ≠ flagNumber) :
    written.read other = r.read other := by
  obtain ⟨a, -, h⟩ := bind_eq_ok_iff.1 h
  obtain ⟨b, -, h⟩ := bind_eq_ok_iff.1 h
  obtain ⟨result, put, h⟩ := bind_eq_ok_iff.1 h
  cases h
  rw [← read_of_write_ne put apart]
  cases flag : op.flag? a b with
  | none => rfl
  | some on => exact result.read_setFlag_ne on (silent (Arithmetic.reports_of_flag? flag))

end RegisterFile

namespace Machine

variable {m : Machine} {r address : Nat}

theorem changeRegisters_read {registers : Except Fault RegisterFile}
    (same : ∀ after, registers = .ok after → after.read r = m.registers.read r) :
    (m.changeRegisters registers).1.registers.read r = m.registers.read r :=
  changeRegisters_of (P := fun after => after.registers.read r = m.registers.read r) rfl same

/-- A V register that an instruction does not touch. -/
theorem execute_read (m : Machine) {i : Instruction} (apart : ¬ i.TouchesV r) :
    (m.execute i).1.registers.read r = m.registers.read r := by
  have touches := m.execute_footprint i
  cases i with
  | system | clear | jump | skip | jumpOffset =>
    exact congrArg (fun after => after.registers.read r) touches
  | ret | call | setIndex | awaitKey | setDelay | setSound | increaseIndex | pointGlyph
  | storeDecimal =>
    obtain ⟨_, same⟩ := touches
    exact congrArg (fun after => after.registers.read r) same
  | storeRegisters =>
    obtain ⟨_, _, same⟩ := touches
    exact congrArg (fun after => after.registers.read r) same
  | set | readDelay => exact changeRegisters_read fun _ h => RegisterFile.read_of_write_ne h apart
  | increase x value =>
    apply changeRegisters_read
    intro after h
    obtain ⟨byte, -, h⟩ := bind_eq_ok_iff.1 h
    exact RegisterFile.read_of_write_ne h apart
  | random x mask =>
    exact changeRegisters_read (m := { m with random := m.random.next.2 })
      fun _ h => RegisterFile.read_of_write_ne h apart
  | arithmetic op x y =>
    obtain ⟨other, silent⟩ := not_or.1 apart
    exact changeRegisters_read fun _ h =>
      RegisterFile.read_arithmetic_ne h other fun reports flag => silent ⟨reports, flag⟩
  | draw x y rows =>
    apply whole_of (P := fun after => after.registers.read r = m.registers.read r) rfl
    intro after progress h
    obtain ⟨⟨collision, drawn⟩, painted, h⟩ := bind_eq_ok_iff.1 h
    obtain ⟨across, -, painted⟩ := bind_eq_ok_iff.1 painted
    obtain ⟨down, -, painted⟩ := bind_eq_ok_iff.1 painted
    obtain ⟨sprite, -, painted⟩ := bind_eq_ok_iff.1 painted
    cases painted
    cases h
    exact m.registers.read_setFlag_ne _ apart
  | loadRegisters x =>
    obtain ⟨index, same⟩ := finishTransfer_index (m.withRegisters (m.memoryToRegisters x).1) x
      (m.memoryToRegisters x).2
    refine (congrArg (fun after => after.registers.read r) same).trans ?_
    apply sweep_fst_of (P := fun after : RegisterFile => after.read r = m.registers.read r) rfl
    intro registers i moved after same h
    obtain ⟨byte, -, h⟩ := bind_eq_ok_iff.1 h
    have below : i < x.toNat + 1 := List.mem_range.1 moved
    have other : r ≠ i := by
      rintro rfl
      exact apart (Nat.le_of_lt_succ below)
    exact (RegisterFile.read_of_write_ne h other).trans same

/-- Bytes written one after the other leave a byte alone at which none of them went. -/
theorem sweep_read {α : Type} {change : Memory → α → Except Fault Memory} {memory : Memory}
    {items : List α} (place : α → Nat)
    (writes : ∀ memory item after, change memory item = .ok after →
      ∃ byte, memory.write (place item) byte = .ok after)
    (apart : ∀ item ∈ items, address ≠ place item) :
    (sweep change memory items).1.read address = memory.read address := by
  apply sweep_fst_of (P := fun after : Memory => after.read address = memory.read address) rfl
  intro before item mem after same h
  obtain ⟨byte, written⟩ := writes before item after h
  rw [Memory.read_of_write written, if_neg (apart item mem), same]

/-- A byte that an instruction does not touch. -/
theorem execute_memory_read (m : Machine) {i : Instruction}
    (apart : ¬ i.TouchesByte m.index address) :
    (m.execute i).1.memory.read address = m.memory.read address := by
  by_cases stores : i.Stores
  · rcases stores with ⟨x, rfl⟩ | ⟨x, rfl⟩
    · change (m.storeDecimal x).1.memory.read address = _
      unfold storeDecimal
      cases m.registers.read x.toNat with
      | error => rfl
      | ok byte =>
        apply sweep_read (fun item : UInt8 × Nat => m.index + item.2)
        · exact fun memory item after h => ⟨item.1, h⟩
        · rintro ⟨digit, i⟩ mem rfl
          have below : i < 3 := List.snd_lt_of_mem_zipIdx mem
          exact apart ⟨Nat.le_add_right .., Nat.add_lt_add_left below _⟩
    · obtain ⟨index, same⟩ := finishTransfer_index { m with memory := (m.registersToMemory x).1 } x
        (m.registersToMemory x).2
      refine (congrArg (fun after => after.memory.read address) same).trans ?_
      apply sweep_read (fun i => m.index + i)
      · intro memory i after h
        obtain ⟨byte, -, h⟩ := bind_eq_ok_iff.1 h
        exact ⟨byte, h⟩
      · rintro i moved rfl
        have below : i < x.toNat + 1 := List.mem_range.1 moved
        exact apart ⟨Nat.le_add_right .., Nat.add_le_add_left (Nat.le_of_lt_succ below) _⟩
  · rw [(m.execute_spares i).memory stores]

/-- No instruction looks at the clock, and none presses a key or lets one go. -/
theorem execute_clock_keys (m : Machine) (i : Instruction) :
    (m.execute i).1.clock = m.clock ∧ (m.execute i).1.keypad.held = m.keypad.held ∧
      (m.execute i).1.keypad.last = m.keypad.last := by
  have touches := m.execute_footprint i
  generalize (m.execute i).1 = after at touches
  cases i with
  | system | clear | jump | skip | jumpOffset =>
    cases touches
    exact ⟨rfl, rfl, rfl⟩
  | ret | call | set | increase | arithmetic | setIndex | readDelay | setDelay | setSound
  | increaseIndex | pointGlyph | random | awaitKey | storeDecimal =>
    obtain ⟨_, rfl⟩ := touches
    exact ⟨rfl, rfl, rfl⟩
  | draw | storeRegisters | loadRegisters =>
    obtain ⟨_, _, rfl⟩ := touches
    exact ⟨rfl, rfl, rfl⟩

theorem execute_index (m : Machine) {i : Instruction} (still : ¬ i.TouchesIndex) :
    (m.execute i).1.registers.index = m.registers.index := by
  have touches := m.execute_footprint i
  generalize (m.execute i).1 = after at touches
  cases i with
  | setIndex | increaseIndex | pointGlyph | storeRegisters | loadRegisters =>
    exact absurd trivial still
  | system | clear | jump | skip | jumpOffset =>
    cases touches
    rfl
  | ret | call | set | increase | arithmetic | readDelay | setDelay | setSound | random | awaitKey
  | storeDecimal =>
    obtain ⟨_, rfl⟩ := touches
    rfl
  | draw =>
    obtain ⟨_, _, rfl⟩ := touches
    rfl

/-- The machine after an instruction is the one before it in every part, register and byte that the
instruction is not one to touch. -/
structure Confined (m : Machine) (i : Instruction) (after : Machine) : Prop
    extends m.SameControl after, m.Spares i after where
  clock : after.clock = m.clock
  /-- Of the keypad a wait for a key changes the wait alone. -/
  held : after.keypad.held = m.keypad.held
  last : after.keypad.last = m.keypad.last
  delay : (∀ x, i ≠ .setDelay x) → after.registers.delay = m.registers.delay
  sound : (∀ x, i ≠ .setSound x) → after.registers.sound = m.registers.sound
  index : ¬ i.TouchesIndex → after.registers.index = m.registers.index
  bytes : ∀ address, ¬ i.TouchesByte m.index address →
    after.memory.read address = m.memory.read address
  v : ∀ r, ¬ i.TouchesV r → after.registers.read r = m.registers.read r

/-- Every instruction is confined to what it is one to touch, on every machine, with operands that
fit or not, and whether it succeeds or fails. -/
theorem execute_confined (m : Machine) (i : Instruction) : m.Confined i (m.execute i).1 where
  toSameControl := m.execute_sameControl i
  toSpares := m.execute_spares i
  clock := (m.execute_clock_keys i).1
  held := (m.execute_clock_keys i).2.1
  last := (m.execute_clock_keys i).2.2
  delay := execute_timer .delay
  sound := execute_timer .sound
  index := m.execute_index
  bytes _ := m.execute_memory_read
  v _ := m.execute_read

end Machine

end Chip8
