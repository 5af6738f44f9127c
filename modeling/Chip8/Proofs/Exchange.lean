import Chip8.Proofs.Transfer

/-!
# What passes between registers and memory

The transfers that have room: V0 to V`x` go to memory (`Machine.Saved`) or come from it
(`Machine.Restored`), and the decimal digits of V`x` go to memory (`Machine.Spelled`). Each moves
all its bytes to their places and touches nothing else but I, and what was saved is restored
(`transfers_exact`).
-/

namespace Chip8
set_option autoImplicit false

namespace Machine

variable {m : Machine} {x : UInt8}

/-- V0 to V`x` stand in memory from I on, and I stands past them. -/
structure Saved (m : Machine) (x : UInt8) (after : Machine) : Prop where
  kept : ∃ memory index, after = { m with memory, registers := { m.registers with index } }
  index : after.index = m.index + x.toNat + 1
  memory : ∀ address, after.memory.read address =
    if m.index ≤ address ∧ address ≤ m.index + x.toNat then m.registers.read (address - m.index)
    else m.memory.read address

/-- The bytes from I on stand in V0 to V`x`, and I stands past them. -/
structure Restored (m : Machine) (x : UInt8) (after : Machine) : Prop where
  kept : ∃ v index, after = m.withRegisters { m.registers with v, index }
  index : after.index = m.index + x.toNat + 1
  v : ∀ r, after.registers.read r =
    if r ≤ x.toNat then m.memory.read (m.index + r) else m.registers.read r

/-- The hundreds, tens and ones of V`x` stand in memory from I on. -/
structure Spelled (m : Machine) (x : UInt8) (after : Machine) : Prop where
  kept : ∃ memory, after = { m with memory }
  digits : ∃ byte hundreds tens ones : UInt8, m.registers.read x.toNat = .ok byte ∧
    hundreds.toNat < 10 ∧ tens.toNat < 10 ∧ ones.toNat < 10 ∧
    100 * hundreds.toNat + 10 * tens.toNat + ones.toNat = byte.toNat ∧
    ∀ address, after.memory.read address =
      if address = m.index then .ok hundreds
      else if address = m.index + 1 then .ok tens
      else if address = m.index + 2 then .ok ones
      else m.memory.read address

/-- A transfer that is through moves I, if there is room for I. -/
theorem finishTransfer_of_room (room : m.index + x.toNat + 1 ≤ 0xFFF) :
    ∃ index : Register 12, index.value = m.index + x.toNat + 1 ∧
      m.finishTransfer x (.ok ()) =
        (m.withRegisters { m.registers with index }, .ok .next) := by
  have fits : m.index + x.toNat + 1 < Register.count 12 := Nat.lt_succ_of_le room
  refine ⟨⟨_, fits⟩, rfl, ?_⟩
  have moved : m.registers.setIndex (m.index + x.toNat + 1) =
      .ok { m.registers with index := ⟨_, fits⟩ } := RegisterFile.setIndex_eq_ok_iff.2 ⟨fits, rfl⟩
  rw [finishTransfer, moved, changeRegisters_ok]

/-- All of V0 to V`x` finds its place, so the end of the transfer does not come too early. -/
theorem min_of_room (room : m.index + x.toNat + 1 ≤ 0xFFF) :
    min x.toNat (0xFFF - m.index) = x.toNat := by
  omega

theorem execute_storeRegisters (digit : Instruction.IsDigit x)
    (room : m.index + x.toNat + 1 ≤ 0xFFF) :
    ∃ after, m.execute (.storeRegisters x) = (after, .ok .next) ∧ m.Saved x after := by
  let moved : Machine := { m with memory := (m.registersToMemory x).1 }
  obtain ⟨index, past, finish⟩ := finishTransfer_of_room (m := moved) room
  have through : (m.registersToMemory x).2 = .ok () := by
    rw [m.registersToMemory_snd digit, if_pos (by rw [memorySize]; omega)]
  refine ⟨moved.withRegisters { moved.registers with index }, ?_, ⟨_, index, rfl⟩, past,
    fun address => ?_⟩
  · rw [execute, storeRegisters]
    dsimp only
    rw [through]
    exact finish
  · have read := m.read_registersToMemory digit address
    rwa [min_of_room room] at read

theorem execute_loadRegisters (digit : Instruction.IsDigit x)
    (room : m.index + x.toNat + 1 ≤ 0xFFF) :
    ∃ after, m.execute (.loadRegisters x) = (after, .ok .next) ∧ m.Restored x after := by
  obtain ⟨v, loaded⟩ := m.memoryToRegisters_v x
  let moved : Machine := m.withRegisters { m.registers with v }
  obtain ⟨index, past, finish⟩ := finishTransfer_of_room (m := moved) room
  have through : (m.memoryToRegisters x).2 = .ok () := by
    rw [m.memoryToRegisters_snd digit, if_pos (by rw [memorySize]; omega)]
  refine ⟨moved.withRegisters { moved.registers with index }, ?_, ⟨v, index, rfl⟩, past,
    fun r => ?_⟩
  · rw [execute, loadRegisters]
    dsimp only
    rw [through, loaded]
    exact finish
  · have read := m.read_memoryToRegisters digit r
    rwa [min_of_room room, loaded] at read

/-- What was saved comes back, whatever became of the registers in between. -/
theorem Saved.restores {stored later : Machine} (saved : m.Saved x stored)
    (digit : Instruction.IsDigit x) (room : m.index + x.toNat + 1 ≤ 0xFFF)
    (memory : later.memory = stored.memory) (index : later.index = m.index) :
    ∃ after, later.execute (.loadRegisters x) = (after, .ok .next) ∧
      ∀ r ≤ x.toNat, after.registers.read r = m.registers.read r := by
  rw [← index] at room
  obtain ⟨after, execute, restored⟩ := execute_loadRegisters digit room
  refine ⟨after, execute, fun r moved => ?_⟩
  calc after.registers.read r
    _ = later.memory.read (later.index + r) := by rw [restored.v, if_pos moved]
    _ = stored.memory.read (m.index + r) := by rw [memory, index]
    _ = m.registers.read (m.index + r - m.index) := by rw [saved.memory, if_pos (by omega)]
    _ = m.registers.read r := by rw [Nat.add_sub_cancel_left]

theorem execute_storeDecimal (digit : Instruction.IsDigit x) (room : m.index + 2 ≤ 0xFFF) :
    ∃ after, m.execute (.storeDecimal x) = (after, .ok .next) ∧ m.Spelled x after := by
  obtain ⟨byte, readX⟩ := m.registers.exists_read digit
  obtain ⟨hundreds, tens, ones, ltH, ltT, ltO, sum, written⟩ := m.exists_digitsToMemory byte
  have through : (m.digitsToMemory byte).2 = .ok () := by
    rw [m.digitsToMemory_snd byte, if_pos (by rw [memorySize]; omega)]
  refine ⟨{ m with memory := (m.digitsToMemory byte).1 }, ?_, ⟨_, rfl⟩,
    byte, hundreds, tens, ones, readX, ltH, ltT, ltO, sum, fun address => ?_⟩
  · simp only [execute, storeDecimal, readX, through]
    rfl
  · have second : address = m.index + 1 ∧ address ≤ 0xFFF ↔ address = m.index + 1 := by omega
    have third : address = m.index + 2 ∧ address ≤ 0xFFF ↔ address = m.index + 2 := by omega
    simpa only [second, third] using written address

/-- Transfers that have room, wherever I points: V0 to V`x` are saved, and restored from there by
whatever machine has the same memory and I; they are loaded; and the digits of V`x` are written. -/
theorem transfers_exact (m : Machine) {x : UInt8} (digit : Instruction.IsDigit x) :
    (m.index + x.toNat + 1 ≤ 0xFFF →
      (∃ stored, m.execute (.storeRegisters x) = (stored, .ok .next) ∧ m.Saved x stored ∧
        ∀ later : Machine, later.memory = stored.memory → later.index = m.index →
          ∃ after, later.execute (.loadRegisters x) = (after, .ok .next) ∧
            ∀ r ≤ x.toNat, after.registers.read r = m.registers.read r) ∧
      ∃ after, m.execute (.loadRegisters x) = (after, .ok .next) ∧ m.Restored x after) ∧
    (m.index + 2 ≤ 0xFFF →
      ∃ after, m.execute (.storeDecimal x) = (after, .ok .next) ∧ m.Spelled x after) := by
  refine ⟨fun room => ⟨?_, execute_loadRegisters digit room⟩, execute_storeDecimal digit⟩
  obtain ⟨stored, execute, saved⟩ := execute_storeRegisters digit room
  exact ⟨stored, execute, saved, fun later => saved.restores digit room⟩

/-- Registers whose I leaves room for all V registers and no more. -/
def clearedRegisters : RegisterFile :=
  { RegisterFile.zero with index := ⟨0xFEF, by decide⟩ }

/-- A machine with the same I, in which every V register holds something. -/
def fullMachine : Machine :=
  (fresh (.ofSeed 0)).withRegisters { clearedRegisters with v := .replicate 16 123 }

theorem transfers_exact_fullMachine :
    Instruction.IsDigit 0xF ∧ fullMachine.index + (0xF : UInt8).toNat + 1 ≤ 0xFFF ∧
      (∃ stored after, fullMachine.execute (.storeRegisters 0xF) = (stored, .ok .next) ∧
        stored.index = 0xFFF ∧ stored.memory.read 0xFFE = .ok 123 ∧
        (stored.withRegisters clearedRegisters).execute (.loadRegisters 0xF) = (after, .ok .next) ∧
        after.registers.read 0xF = .ok 123) ∧
      ∃ spelled, fullMachine.execute (.storeDecimal 0xF) = (spelled, .ok .next) ∧
        fullMachine.Spelled 0xF spelled := by
  have last : Instruction.IsDigit 0xF := by decide
  have room : fullMachine.index + (0xF : UInt8).toNat + 1 ≤ 0xFFF := by decide
  obtain ⟨transfers, spells⟩ := transfers_exact fullMachine last
  obtain ⟨⟨stored, execute, saved, restores⟩, -⟩ := transfers room
  obtain ⟨after, load, back⟩ := restores (stored.withRegisters clearedRegisters) rfl rfl
  refine ⟨last, room, ⟨stored, after, execute, saved.index, ?_, load, ?_⟩, spells (by decide)⟩
  · rw [saved.memory, if_pos (by decide)]
    rfl
  · rw [back 0xF (by decide)]
    rfl

end Machine

end Chip8
