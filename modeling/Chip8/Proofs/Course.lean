import Chip8.Proofs.Calls

/-!
# Where a step leads

The program counter and the mode after a step that executed an instruction, told from the
machine before it. `Machine.LeadsTo` says for each instruction which address comes next, and
whether a test comes out true is said by `Machine.Satisfies`, by the registers and keys that it
asks for. `step_lands` says so of every step of a machine that calls lead to.
-/

namespace Chip8
set_option autoImplicit false

namespace Machine

variable {m after : Machine} {i : Instruction}

/-- Whether a test comes out true. -/
def Satisfies (m : Machine) : Test → Prop
  | .byte x value => m.registers.read x.toNat = .ok value
  | .register x y => ∃ byte, m.registers.read x.toNat = .ok byte ∧
    m.registers.read y.toNat = .ok byte
  | .key x => ∃ byte, m.registers.read x.toNat = .ok byte ∧
    m.keypad.held[byte.toNat % 16]? = some true

/-- A test that is answered is answered with its truth. -/
theorem satisfies_iff {test : Test} {answer : Bool} (answered : m.answer test = .ok answer) :
    m.Satisfies test ↔ answer = true := by
  cases test with
  | byte x value =>
    obtain ⟨a, readX, h⟩ := bind_eq_ok_iff.1 answered
    cases h
    simp [Satisfies, readX]
  | register x y =>
    obtain ⟨a, readX, answered⟩ := bind_eq_ok_iff.1 answered
    obtain ⟨b, readY, h⟩ := bind_eq_ok_iff.1 answered
    cases h
    rw [beq_iff_eq]
    constructor
    · rintro ⟨byte, readX', readY'⟩
      cases readX.symm.trans readX'
      cases readY.symm.trans readY'
      rfl
    · rintro rfl
      exact ⟨a, readX, readY⟩
  | key x =>
    obtain ⟨a, readX, held⟩ := bind_eq_ok_iff.1 answered
    rw [Keypad.isHeld_eq_ok_iff, toNat_and_digit] at held
    constructor
    · rintro ⟨b, readX', down⟩
      cases readX.symm.trans readX'
      exact Option.some.inj (held.symm.trans down)
    · rintro rfl
      exact ⟨a, readX, held⟩

/-- The address to which an instruction leads from the machine before it. -/
def LeadsTo (m : Machine) : Instruction → Nat → Prop
  | .awaitKey _, target => target = m.pc
  | .ret, target => m.stack.returns.head? = some target
  | .jump address, target | .call address, target => target = address.toNat
  | .jumpOffset base, target =>
    ∃ byte, m.registers.read 0 = .ok byte ∧ target = base.toNat + byte.toNat
  | .skip test expected, target =>
    (m.Satisfies test ↔ expected) ∧ target = m.pc + 4 ∨
      ¬ (m.Satisfies test ↔ expected) ∧ target = m.pc + 2
  | _, target => target = m.pc + 2

/-- What an instruction answers leads where the instruction does. -/
theorem leadsTo_of_answers {progress : Progress} (answers : m.Answers i progress) :
    m.LeadsTo i (progress.destination m.pc) := by
  cases i with
  | ret =>
    obtain ⟨address, top, rfl⟩ := answers
    exact top
  | skip test expected =>
    obtain ⟨answer, answered, rfl⟩ := answers
    have truth : (m.Satisfies test ↔ expected) ↔ answer = expected := by
      rw [satisfies_iff answered, ← Bool.eq_iff_iff]
    by_cases same : answer = expected
    · refine .inl ⟨truth.2 same, ?_⟩
      simp [Progress.skipIf, Progress.destination, same]
    · refine .inr ⟨mt truth.1 same, ?_⟩
      simp [Progress.skipIf, Progress.destination, same]
  | jumpOffset base =>
    obtain ⟨byte, readZero, rfl⟩ := answers
    exact ⟨byte, readZero, rfl⟩
  | system | clear | jump | call | set | increase | arithmetic | setIndex | random | draw
  | readDelay | awaitKey | setDelay | setSound | increaseIndex | pointGlyph | storeDecimal
  | storeRegisters | loadRegisters =>
    cases answers
    rfl

/-- What a step that executed an instruction of a program of this size makes of the program
counter and the mode. -/
structure Lands (m : Machine) (size : Nat) (i : Instruction) (after : Machine) : Prop where
  /-- The instruction is the one that the two bytes at the program counter encode. -/
  decoded : ∃ high low, m.memory.read m.pc = .ok high ∧ m.memory.read (m.pc + 1) = .ok low ∧
    Opcode.decode (.ofNat (high.toNat * 256 + low.toNat)) = .ok i
  pc : m.LeadsTo i after.pc
  awaits : after.mode = .awaitingKey ↔ ∃ x, i = .awaitKey x
  halts : after.mode = .halted ↔ (∀ x, i ≠ .awaitKey x) ∧
    ¬ (programStart ≤ after.pc ∧ after.pc < programStart + size)
  runs : after.mode = .running ↔ (∀ x, i ≠ .awaitKey x) ∧
    programStart ≤ after.pc ∧ after.pc < programStart + size
  fault : after.fault = none

theorem exists_bytes_of_fetch (fetch : m.fetch = .ok i) :
    ∃ high low, m.memory.read m.pc = .ok high ∧ m.memory.read (m.pc + 1) = .ok low ∧
      Opcode.decode (.ofNat (high.toNat * 256 + low.toNat)) = .ok i := by
  obtain ⟨word, read, decoded⟩ := bind_eq_ok_iff.1 fetch
  obtain ⟨high, readHigh, read⟩ := bind_eq_ok_iff.1 read
  obtain ⟨low, readLow, h⟩ := bind_eq_ok_iff.1 read
  cases h
  exact ⟨high, low, readHigh, readLow, decoded⟩

/-- A running machine runs on inside its program and halts outside. -/
theorem settled_mode_iff {size : Nat} (running : m.mode = .running)
    (loaded : m.programSize = some size) :
    (m.settled.mode = .running ↔ programStart ≤ m.pc ∧ m.pc < programStart + size) ∧
      (m.settled.mode = .halted ↔ ¬ (programStart ≤ m.pc ∧ m.pc < programStart + size)) ∧
      m.settled.mode ≠ .awaitingKey := by
  rw [settled_of_running running, ← inProgram_iff_of_size loaded]
  by_cases inside : m.InProgram <;> simp [inside, withMode]

/-- What a step makes of the machine when it executes an instruction. -/
theorem StepEffect.lands {size : Nat} (effect : m.StepEffect after (.ok (.executed i)))
    (sound : m.Sound) (loaded : m.programSize = some size) : m.Lands size i after := by
  cases effect with
  | @held mode inside x fetch =>
    have fault := sound.fault_none (by simp [mode])
    exact ⟨exists_bytes_of_fetch fetch, rfl, by simp, by simp, by simp, fault⟩
  | @executed mode inside _ progress pc fetch execute moves lands =>
    have same := m.execute_sameControl i
    have answers := execute_answers execute
    -- Only a wait for a key holds the machine, and this one moves.
    have free (x : UInt8) : i ≠ .awaitKey x := by
      rintro rfl
      exact moves answers
    obtain ⟨runs, halts, awake⟩ := settled_mode_iff (m := (m.execute i).1.withPc pc)
      (same.mode.trans mode) (same.programSize.trans loaded)
    have stands : ((m.execute i).1.withPc pc).settled.pc = progress.destination m.pc :=
      (congrArg (·.pc.value) (settled_registers _)).trans lands
    have moved : ((m.execute i).1.withPc pc).pc = progress.destination m.pc := lands
    rw [moved, ← stands] at runs halts
    constructor
    case decoded => exact exists_bytes_of_fetch fetch
    case pc =>
      rw [stands]
      exact leadsTo_of_answers answers
    case awaits => exact iff_of_false awake fun ⟨x, waits⟩ => free x waits
    case halts => exact halts.trans (and_iff_right free).symm
    case runs => exact runs.trans (and_iff_right free).symm
    case fault =>
      rw [settled_fault]
      exact same.fault.trans (sound.fault_none (by simp [mode]))

/-- A step that executes an instruction, of a machine that calls lead to, starts inside the
program and leads where the instruction does. It ends in a wait for a key if that was the
instruction, and else runs on or halts without a fault, inside the program or outside. -/
theorem step_lands (random : Random) (calls : List Call) (i : Instruction) :
    let m := (fresh random).after calls
    m.step.2 = .ok (.executed i) →
    ∃ size, m.programSize = some size ∧ m.mode = .running ∧
      (programStart ≤ m.pc ∧ m.pc < programStart + size) ∧ m.Lands size i m.step.1 := by
  intro m executed
  have sound : m.Sound := sound_after random calls
  have effect := step_effect sound
  rw [executed] at effect
  obtain ⟨size, loaded, bounds⟩ := effect.inProgram
  refine ⟨size, loaded, ?_, bounds, effect.lands sound loaded⟩
  generalize m.step.1 = after at effect
  cases effect with
  | held mode | executed mode => exact mode

/-- A program that skips its second instruction and so its end. -/
def skipProgram : List UInt8 := [0x30, 0x00, 0x00, 0xE0]

theorem step_lands_skipProgram :
    let m := (fresh (.ofSeed 0)).after [.load skipProgram]
    m.step.2 = .ok (.executed (.skip (.byte 0 0) true)) ∧
      m.step.1.pc = 0x204 ∧ m.step.1.mode = .halted ∧ m.step.1.fault = none := by
  intro m
  have reached : m = (fresh (.ofSeed 0)).loaded skipProgram := after_load _ (by decide) _
  have start : ((fresh (.ofSeed 0)).loaded skipProgram).Placed skipProgram 0 :=
    placed_loaded _ (by decide) (by decide)
  have executed : m.step.2 = .ok (.executed (.skip (.byte 0 0) true)) := by
    rw [reached, step_answer_of_fetch start.sound start.mode start.inProgram start.fetch]
    rfl
  obtain ⟨size, loaded, -, -, lands⟩ := step_lands (.ofSeed 0) [.load skipProgram] _ executed
  change m.programSize = some size at loaded
  change m.Lands size _ m.step.1 at lands
  have four : size = 4 := by
    rw [reached] at loaded
    exact (Option.some.inj loaded).symm
  have zero : m.Satisfies (.byte 0 0) := by
    rw [reached]
    rfl
  have there : m.step.1.pc = 0x204 := by
    rcases lands.pc with ⟨-, there⟩ | ⟨unlike, -⟩
    · rw [there, reached]
      rfl
    · exact absurd (iff_of_true zero rfl) unlike
  refine ⟨executed, there, lands.halts.2 ⟨nofun, ?_⟩, lands.fault⟩
  rw [there, four]
  decide

end Machine

end Chip8
