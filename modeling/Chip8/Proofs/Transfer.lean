import Chip8.Proofs.Refusal

/-!
# What a transfer moves

A transfer goes up from I and stops at the first address outside memory, so it moves exactly
the bytes that lie inside: `Machine.read_registersToMemory`, `Machine.read_memoryToRegisters`
and `Machine.exists_digitsToMemory` say what stands where afterwards, whether the transfer came
to its end or not. All three come from `sweep_view`.
-/

namespace Chip8
set_option autoImplicit false

theorem sweep_map {σ α β : Type} (change : σ → β → Except Fault σ) (f : α → β) (s : σ)
    (items : List α) :
    sweep change s (items.map f) = sweep (fun s a => change s (f a)) s items := by
  induction items generalizing s with
  | nil => rfl
  | cons item rest ih =>
    simp only [List.map_cons, sweep]
    cases change s (f item) with
    | ok after => exact ih after
    | error fault => rfl

/-- A sweep that moves one value after the other to consecutive places, up to the first number
that has no value: a place holds its value if the sweep came to it, and else what it held. -/
theorem sweep_view {σ β : Type} {change : σ → Nat → Except Fault σ} (view : σ → Nat → β)
    (value : Nat → β) (start stop : Nat) {bound : Nat}
    (moves : ∀ s i, i < bound → i < stop → ∃ after, change s i = .ok after ∧
      ∀ place, view after place = if place = start + i then value i else view s place)
    (stops : ∀ s i, i < bound → stop ≤ i → ∃ fault, change s i = .error fault)
    (s : σ) {first count : Nat} (bounded : first + count ≤ bound) (place : Nat) :
    view (sweep change s (List.range' first count)).1 place =
      if start + first ≤ place ∧ place < start + min (first + count) stop
      then value (place - start) else view s place := by
  induction count generalizing s first with
  | zero => rw [if_neg (by omega)]; rfl
  | succ count ih =>
    rw [List.range'_succ, sweep]
    by_cases inside : first < stop
    · obtain ⟨after, change, moved⟩ := moves s first (by omega) inside
      rw [change]
      dsimp only
      rw [ih after (by omega), moved]
      by_cases here : place = start + first
      · subst here
        rw [if_neg (by omega), if_pos rfl, if_pos (by omega), Nat.add_sub_cancel_left]
      · rw [if_neg here]
        have same : start + (first + 1) ≤ place ∧ place < start + min (first + 1 + count) stop ↔
            start + first ≤ place ∧ place < start + min (first + (count + 1)) stop := by omega
        simp only [same]
    · obtain ⟨fault, change⟩ := stops s first (by omega) (by omega)
      rw [change]
      dsimp only
      rw [if_neg (by omega)]

theorem Memory.write_view {memory : Memory} {address : Nat} (inside : address < memorySize)
    (byte : UInt8) : ∃ after, memory.write address byte = .ok after ∧
      ∀ place, after.read place = if place = address then .ok byte else memory.read place := by
  have written : memory.write address byte = .ok ⟨memory.bytes.set address byte inside⟩ :=
    dif_pos inside
  exact ⟨_, written, Memory.read_of_write written⟩

theorem Memory.exists_write_error (memory : Memory) {address : Nat}
    (beyond : memorySize ≤ address) (byte : UInt8) :
    ∃ fault, memory.write address byte = .error fault :=
  ⟨_, dif_neg (Nat.not_lt.2 beyond)⟩

theorem Memory.exists_read_error (memory : Memory) {address : Nat}
    (beyond : memorySize ≤ address) : ∃ fault, memory.read address = .error fault :=
  ⟨_, dif_neg (Nat.not_lt.2 beyond)⟩

theorem RegisterFile.write_view {r : RegisterFile} {x : Nat} (known : x < 16) (byte : UInt8) :
    ∃ after, r.write x byte = .ok after ∧
      ∀ other, after.read other = if other = x then .ok byte else r.read other := by
  have written := r.write_of_lt known byte
  exact ⟨_, written, read_of_write written⟩

namespace Machine

/-- What stands in memory once the values up to `last` were written from I on, as far as memory
goes. -/
theorem read_sweep_write (m : Machine) {change : Memory → Nat → Except Fault Memory}
    {value : Nat → Except Fault UInt8} {last : Nat}
    (writes : ∀ i < last + 1, ∃ byte, value i = .ok byte ∧
      ∀ memory, change memory i = memory.write (m.index + i) byte)
    (place : Nat) :
    (sweep change m.memory (List.range (last + 1))).1.read place =
      if m.index ≤ place ∧ place ≤ m.index + min last (0xFFF - m.index)
      then value (place - m.index) else m.memory.read place := by
  have low := m.index_lt
  have moves (memory : Memory) (i : Nat) (known : i < last + 1)
      (inside : i < memorySize - m.index) :
      ∃ after, change memory i = .ok after ∧ ∀ place, after.read place =
        if place = m.index + i then value i else memory.read place := by
    obtain ⟨byte, value, change⟩ := writes i known
    rw [change memory, value]
    exact Memory.write_view (by omega) byte
  have stops (memory : Memory) (i : Nat) (known : i < last + 1)
      (beyond : memorySize - m.index ≤ i) : ∃ fault, change memory i = .error fault := by
    obtain ⟨byte, -, change⟩ := writes i known
    rw [change memory]
    exact memory.exists_write_error (by omega) byte
  have swept := sweep_view Memory.read value m.index (memorySize - m.index) moves stops m.memory
    (Nat.le_of_eq (Nat.zero_add _)) place
  rw [← List.range_eq_range'] at swept
  refine swept.trans ?_
  have same : m.index + 0 ≤ place ∧
        place < m.index + min (0 + (last + 1)) (memorySize - m.index) ↔
      m.index ≤ place ∧ place ≤ m.index + min last (0xFFF - m.index) := by
    rw [memorySize] at *
    omega
  simp only [same]

/-- Memory after V0 to V`x` were to be written at I, whether all of them were or not. -/
theorem read_registersToMemory (m : Machine) {x : UInt8} (h : Instruction.IsDigit x)
    (place : Nat) :
    (m.registersToMemory x).1.read place =
      if m.index ≤ place ∧ place ≤ m.index + min x.toNat (0xFFF - m.index)
      then m.registers.read (place - m.index) else m.memory.read place := by
  refine m.read_sweep_write (fun r moved => ?_) place
  have known : r < 16 := lt_of_mem_transferred h (List.mem_range.2 moved)
  have value := m.registers.read_of_lt known
  exact ⟨_, value, fun memory => by rw [value, ok_bind]⟩

/-- Memory after the digits of a byte were to be written at I, whether all of them were or
not. -/
theorem read_digitsToMemory (m : Machine) (byte : UInt8) (place : Nat) :
    (m.digitsToMemory byte).1.read place =
      if m.index ≤ place ∧ place ≤ m.index + min 2 (0xFFF - m.index)
      then .ok ((decimalDigits byte).getD (place - m.index) 0) else m.memory.read place := by
  have numbered : (decimalDigits byte).zipIdx =
      (List.range 3).map fun i => ((decimalDigits byte).getD i 0, i) := rfl
  rw [digitsToMemory, numbered, sweep_map]
  exact m.read_sweep_write (fun i _ => ⟨_, rfl, fun memory => rfl⟩) place

/-- A byte in three decimal digits. -/
theorem exists_decimalDigits (byte : UInt8) : ∃ hundreds tens ones : UInt8,
    decimalDigits byte = [hundreds, tens, ones] ∧
    hundreds.toNat < 10 ∧ tens.toNat < 10 ∧ ones.toNat < 10 ∧
    100 * hundreds.toNat + 10 * tens.toNat + ones.toNat = byte.toNat := by
  have small := byte.toNat_lt
  refine ⟨_, _, _, rfl, ?_⟩
  simp only [UInt8.toNat_div, UInt8.toNat_mod, UInt8.reduceToNat]
  omega

/-- The digits that were to be written at I are the hundreds, the tens and the ones of the byte,
and those that lie inside memory stand there. -/
theorem exists_digitsToMemory (m : Machine) (byte : UInt8) : ∃ hundreds tens ones : UInt8,
    hundreds.toNat < 10 ∧ tens.toNat < 10 ∧ ones.toNat < 10 ∧
    100 * hundreds.toNat + 10 * tens.toNat + ones.toNat = byte.toNat ∧
    ∀ address, (m.digitsToMemory byte).1.read address =
      if address = m.index then .ok hundreds
      else if address = m.index + 1 ∧ address ≤ 0xFFF then .ok tens
      else if address = m.index + 2 ∧ address ≤ 0xFFF then .ok ones
      else m.memory.read address := by
  obtain ⟨hundreds, tens, ones, digits, ltH, ltT, ltO, sum⟩ := exists_decimalDigits byte
  refine ⟨hundreds, tens, ones, ltH, ltT, ltO, sum, fun address => ?_⟩
  have low : m.index < 0x1000 := m.index_lt
  rw [m.read_digitsToMemory byte address, digits]
  by_cases first : address = m.index
  · rw [if_pos (by omega), if_pos first, first, Nat.sub_self]
    rfl
  rw [if_neg first]
  by_cases second : address = m.index + 1 ∧ address ≤ 0xFFF
  · rw [if_pos (by omega), if_pos second, second.1, Nat.add_sub_cancel_left]
    rfl
  rw [if_neg second]
  by_cases third : address = m.index + 2 ∧ address ≤ 0xFFF
  · rw [if_pos (by omega), if_pos third, third.1, Nat.add_sub_cancel_left]
    rfl
  rw [if_neg third, if_neg (by omega)]

/-- Registers after the bytes at I were to be read into V0 to V`x`, whether all of them were or
not. -/
theorem read_memoryToRegisters (m : Machine) {x : UInt8} (h : Instruction.IsDigit x) (r : Nat) :
    (m.memoryToRegisters x).1.read r =
      if r ≤ min x.toNat (0xFFF - m.index) then m.memory.read (m.index + r)
      else m.registers.read r := by
  have low := m.index_lt
  have known (i : Nat) (moved : i < x.toNat + 1) : i < 16 :=
    lt_of_mem_transferred h (List.mem_range.2 moved)
  have moves (registers : RegisterFile) (i : Nat) (moved : i < x.toNat + 1)
      (inside : i < memorySize - m.index) :
      ∃ after, (do registers.write i (← m.memory.read (m.index + i))) = .ok after ∧
        ∀ other, after.read other =
          if other = 0 + i then m.memory.read (m.index + i) else registers.read other := by
    rw [m.memory.read_of_lt (Nat.add_lt_of_lt_sub' inside), ok_bind, Nat.zero_add]
    exact RegisterFile.write_view (known i moved) _
  have stops (registers : RegisterFile) (i : Nat) (moved : i < x.toNat + 1)
      (beyond : memorySize - m.index ≤ i) :
      ∃ fault, (do registers.write i (← m.memory.read (m.index + i))) = .error fault := by
    obtain ⟨fault, refused⟩ := m.memory.exists_read_error (Nat.sub_le_iff_le_add'.1 beyond)
    exact ⟨fault, by rw [refused, error_bind]⟩
  have swept := sweep_view RegisterFile.read (fun i => m.memory.read (m.index + i)) 0
    (memorySize - m.index) moves stops m.registers (Nat.le_of_eq (Nat.zero_add _)) r
  rw [← List.range_eq_range'] at swept
  refine swept.trans ?_
  have same : 0 + 0 ≤ r ∧ r < 0 + min (0 + (x.toNat + 1)) (memorySize - m.index) ↔
      r ≤ min x.toNat (0xFFF - m.index) := by
    rw [memorySize] at *
    omega
  simp only [same, Nat.sub_zero]

end Machine

end Chip8
