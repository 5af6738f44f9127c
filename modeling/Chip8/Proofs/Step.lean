import Chip8.Machine.Call
import Chip8.Proofs.Encoding
import Chip8.Proofs.Progress

/-!
# What a step can do

`Machine.Sound` is the invariant: it ties the mode, the program counter, the fault and the
wait of the keypad together, and bounds the numbers from which a fault could come otherwise.
`Machine.StepEffect` says once what a step of a sound machine can do (`step_effect`), so no
later proof opens the step again.
-/

namespace Chip8
set_option autoImplicit false

/-- Whether the register and the key that a wait names exist. -/
def KeyWait.Fits : KeyWait → Prop
  | idle => True
  | waiting register => register.toNat < 16
  | resolved register key => register.toNat < 16 ∧ key.toNat < 16

namespace Machine

/-- What holds of the parts of a machine whatever its mode is. -/
structure WellFormed (m : Machine) : Prop where
  program : ∀ size ∈ m.programSize, size ≤ programLimit
  calls : m.stack.size ≤ CallStack.capacity
  /-- A call lies in memory, so the address after it is at most one past the end. -/
  returns : ∀ address ∈ m.stack.returns, address ≤ memorySize + 1
  wait : m.keypad.wait.Fits

/-- Whether the machine is held at an instruction that waits for a key, be it paused or not. -/
def AwaitsKey (m : Machine) : Prop :=
  m.mode = .awaitingKey ∨ m.mode = .paused ∧ m.resumeTo = .awaitingKey

/-- The invariant of all machines that calls lead to. -/
structure Sound (m : Machine) : Prop extends m.WellFormed where
  idle_iff : m.mode = .idle ↔ m.programSize = none
  resumeTo : m.resumeTo.isActive
  halted_of_fault : m.fault ≠ none → m.mode = .halted
  fault_iff : m.mode = .halted → (m.fault ≠ none ↔ m.InProgram)
  placed : m.mode ≠ .idle → m.mode ≠ .halted →
    m.InProgram ∨ m.programSize = some 0 ∧ m.pc = programStart
  wait_iff : m.keypad.wait ≠ .idle ↔ m.AwaitsKey

/-- What a step does to a sound machine, with what it answers. -/
inductive StepEffect (m : Machine) : Machine → Except Fault Cycle → Prop where
  | idle (mode : m.mode = .idle) : StepEffect m m (.error .noProgram)
  | halted (mode : m.mode = .halted) : StepEffect m m (.ok .halted)
  | paused (mode : m.mode = .paused) : StepEffect m m (.ok .paused)
  | awaiting (mode : m.mode = .awaitingKey)
      (pending : ∀ register key, m.keypad.wait ≠ .resolved register key) :
      StepEffect m m (.ok .awaitingKey)
  | received (mode : m.mode = .awaitingKey) {register key : UInt8} {written : RegisterFile}
      {pc : Register 16} (arrived : m.keypad.wait = .resolved register key)
      (write : m.registers.write register.toNat key = .ok written) (lands : pc.value = m.pc + 2) :
      StepEffect m
        { m with registers := { written with pc }, keypad := m.keypad.cancel,
                 mode := .running }.settled
        (.ok (.keyReceived register key))
  | left (mode : m.mode = .running) (outside : ¬ m.InProgram) :
      StepEffect m (m.withMode .halted) (.ok .halted)
  | unfetched (mode : m.mode = .running) (inside : m.InProgram) {fault : Fault}
      (fetch : m.fetch = .error fault) :
      StepEffect m (m.fail fault) (.error fault)
  | refused (mode : m.mode = .running) (inside : m.InProgram) {i : Instruction} {fault : Fault}
      (fetch : m.fetch = .ok i) (execute : (m.execute i).2 = .error fault) :
      StepEffect m ((m.execute i).1.fail fault) (.error fault)
  | held (mode : m.mode = .running) (inside : m.InProgram) {x : UInt8}
      (fetch : m.fetch = .ok (.awaitKey x)) :
      StepEffect m { m with keypad := m.keypad.arm x, mode := .awaitingKey }
        (.ok (.executed (.awaitKey x)))
  | executed (mode : m.mode = .running) (inside : m.InProgram) {i : Instruction}
      {progress : Progress} {pc : Register 16} (fetch : m.fetch = .ok i)
      (execute : (m.execute i).2 = .ok progress) (moves : progress ≠ .hold)
      (lands : pc.value = progress.destination m.pc) :
      StepEffect m ((m.execute i).1.withPc pc).settled (.ok (.executed i))

theorem isEncodable_of_fetch {m : Machine} {i : Instruction} (h : m.fetch = .ok i) :
    i.IsEncodable := by
  obtain ⟨word, -, h⟩ := bind_eq_ok_iff.1 h
  exact (Opcode.decode_eq_ok_iff_encode.1 h).1

theorem InProgram.pc_lt {m : Machine} (inside : m.InProgram) (formed : m.WellFormed) :
    m.pc < memorySize := by
  obtain ⟨size, loaded, -, below⟩ := inside
  have fits := formed.program size loaded
  unfold programLimit programStart memorySize at *
  omega

theorem Sound.loaded {m : Machine} (sound : m.Sound) (mode : m.mode ≠ .idle) :
    m.programSize ≠ none :=
  fun none => mode (sound.idle_iff.2 none)

theorem Sound.fault_none {m : Machine} (sound : m.Sound) (going : m.mode ≠ .halted) :
    m.fault = none :=
  Decidable.of_not_not fun fault => going (sound.halted_of_fault fault)

/-- A machine that is neither held nor paused waits for no key. -/
theorem Sound.wait_idle_of_ne {m : Machine} (sound : m.Sound) (free : m.mode ≠ .awaitingKey)
    (awake : m.mode ≠ .paused) : m.keypad.wait = .idle :=
  Decidable.of_not_not fun waits => (sound.wait_iff.1 waits).elim free fun held => awake held.1

theorem Sound.wait_idle {m : Machine} (sound : m.Sound) (running : m.mode = .running) :
    m.keypad.wait = .idle :=
  sound.wait_idle_of_ne (by simp [running]) (by simp [running])

theorem Sound.pc_lt {m : Machine} (sound : m.Sound) (loaded : m.mode ≠ .idle)
    (going : m.mode ≠ .halted) : m.pc < memorySize := by
  rcases sound.placed loaded going with inside | ⟨-, start⟩
  · exact inside.pc_lt sound.toWellFormed
  · rw [start]
    decide

/-- Wherever an instruction leads, the program counter can hold it. -/
theorem destination_lt {m : Machine} {i : Instruction} {progress : Progress}
    (formed : m.WellFormed) (fits : i.IsEncodable) (inside : m.pc < memorySize)
    (h : (m.execute i).2 = .ok progress) :
    progress.destination m.pc < Register.count 16 := by
  have answers := execute_answers h
  have near : m.pc + 4 < Register.count 16 := by
    rw [memorySize] at inside
    have : Register.count 16 = 65536 := rfl
    omega
  cases i with
  | ret =>
    obtain ⟨address, top, rfl⟩ := answers
    have := formed.returns address (List.mem_of_mem_head? top)
    change address < 65536
    rw [memorySize] at this
    omega
  | jump target | call target =>
    cases answers
    exact target.toNat_lt
  | skip test expected =>
    obtain ⟨answer, -, rfl⟩ := answers
    cases answer == expected
    · exact Nat.lt_of_le_of_lt (Nat.add_le_add_left (by decide) _) near
    · exact near
  | jumpOffset base =>
    obtain ⟨byte, -, rfl⟩ := answers
    have low : base.toNat < 0x1000 := fits
    have := byte.toNat_lt
    change base.toNat + byte.toNat < 65536
    omega
  | awaitKey =>
    cases answers
    exact Nat.lt_of_le_of_lt (Nat.le_add_right _ _) near
  | system | clear | set | increase | arithmetic | setIndex | random | draw | readDelay
  | setDelay | setSound | increaseIndex | pointGlyph | storeDecimal | storeRegisters
  | loadRegisters =>
    cases answers
    exact Nat.lt_of_le_of_lt (Nat.add_le_add_left (by decide) _) near

/-- A cycle in which an instruction was fetched. -/
theorem instructionCycle_of_fetch {m : Machine} {i : Instruction} (h : m.fetch = .ok i) :
    m.instructionCycle = match (m.execute i).2 with
      | .error fault => ((m.execute i).1, .error fault)
      | .ok progress => (m.execute i).1.conclude progress (.executed i) := by
  simp only [instructionCycle, h]
  rcases m.execute i with ⟨after, _ | _⟩ <;> rfl

/-- The step of a sound machine that runs. -/
theorem runCycle_effect {m : Machine} (sound : m.Sound) (mode : m.mode = .running) :
    StepEffect m (guard m.runCycle).1 (guard m.runCycle).2 := by
  have loaded := sound.loaded (by simp [mode])
  by_cases inside : m.InProgram
  · have enters : m.runCycle = m.instructionCycle := by
      simp only [runCycle, inProgram_eq_ok_true_iff.2 inside]
    rw [enters]
    cases fetch : m.fetch with
    | error fault =>
      simp only [instructionCycle, fetch]
      exact .unfetched mode inside fetch
    | ok i =>
      rw [instructionCycle_of_fetch fetch]
      have fits := isEncodable_of_fetch fetch
      have same := m.execute_sameControl i
      cases execute : (m.execute i).2 with
      | error fault => exact .refused mode inside fetch execute
      | ok progress =>
        -- Holding is apart because it alone leaves the program counter where it is.
        by_cases moves : progress = .hold
        · subst moves
          obtain ⟨x, rfl⟩ := execute_hold execute
          rw [execute_awaitKey fits]
          exact .held mode inside fetch
        · have pc : (m.execute i).1.pc = m.pc := congrArg Register.value same.pc
          have lt := destination_lt sound.toWellFormed fits
            (inside.pc_lt sound.toWellFormed) execute
          rw [← pc] at lt
          dsimp only
          rw [conclude_of_lt (same.mode.trans mode) (same.programSize ▸ loaded) moves lt]
          exact .executed mode inside fetch execute moves (by simp only [pc])
  · have leaves : m.runCycle = (m.withMode .halted, .ok .halted) := by
      simp [runCycle, inProgram_of_loaded loaded, inside]
    rw [leaves]
    exact .left mode inside

/-- The step of a sound machine that waits for a key. -/
theorem keyCycle_effect {m : Machine} (sound : m.Sound) (mode : m.mode = .awaitingKey) :
    StepEffect m (guard m.keyCycle).1 (guard m.keyCycle).2 := by
  cases wait : m.keypad.wait with
  | idle | waiting register =>
    have nothing : m.keyCycle = (m, .ok .awaitingKey) := by simp [keyCycle, Keypad.take, wait]
    rw [nothing]
    exact .awaiting mode (by simp [wait])
  | resolved register key =>
    have fits : register.toNat < 16 ∧ key.toNat < 16 := by
      have := sound.wait
      rwa [wait] at this
    have loaded := sound.loaded (by simp [mode])
    have lt : m.pc + 2 < Register.count 16 := by
      have := sound.pc_lt (by simp [mode]) (by simp [mode])
      rw [memorySize] at this
      have : Register.count 16 = 65536 := rfl
      omega
    let received : Machine :=
      { m with registers := { m.registers with v := m.registers.v.set register.toNat key fits.1 }
               keypad := m.keypad.cancel, mode := .running }
    have receives : m.keyCycle = received.conclude .next (.keyReceived register key) := by
      simp [keyCycle, Keypad.take, wait, receiveKey, RegisterFile.writeNat_toNat,
        m.registers.write_of_lt fits.1, withRegisters, withMode, received]
    have moves : Progress.next ≠ .hold := by simp
    rw [receives, conclude_of_lt (m := received) rfl loaded moves lt]
    exact .received mode wait (m.registers.write_of_lt fits.1 key) rfl

theorem step_effect {m : Machine} (sound : m.Sound) : StepEffect m m.step.1 m.step.2 := by
  unfold step
  cases mode : m.mode with
  | idle => exact .idle mode
  | halted => exact .halted mode
  | paused => exact .paused mode
  | awaitingKey => exact keyCycle_effect sound mode
  | running => exact runCycle_effect sound mode

end Machine

end Chip8
