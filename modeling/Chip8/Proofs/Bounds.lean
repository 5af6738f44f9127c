import Chip8.Machine.Checked
import Chip8.Proofs.Soundness

/-!
# No limit is passed

On a machine that calls lead to, watching the limits changes nothing: no sum needs more than 16
bits, no place lies outside its array, and the baseline of the clock never passes the time it
is brought up to (`checkedHistory_eq`). The bounds come from soundness: a machine that executes
an instruction stands in memory, its index register holds an address, its call stack has at
most sixteen entries, and an instruction that was fetched names registers that exist.
-/

namespace Chip8
set_option autoImplicit false

@[simp] theorem some_bind {α β : Type} (a : α) (f : α → Option β) : (some a >>= f) = f a := rfl

/-- A sweep of changes that all have a result has one. -/
theorem checkedSweep_eq {σ α : Type} {checked : σ → α → Option (Except Fault σ)}
    {change : σ → α → Except Fault σ} {items : List α}
    (same : ∀ s, ∀ item ∈ items, checked s item = some (change s item)) (s : σ) :
    checkedSweep checked s items = some (sweep change s items) := by
  induction items generalizing s with
  | nil => rfl
  | cons item rest ih =>
    rw [checkedSweep, sweep, same s item List.mem_cons_self, some_bind]
    cases change s item with
    | error fault => rfl
    | ok after => exact ih (fun s other mem => same s other (List.mem_cons_of_mem _ mem)) after

/-- An address and a number of 8 bits have a sum of 16 bits. -/
theorem checkedSum_address {address n : Nat} (h : address < memorySize) (small : n < 256) :
    checkedSum address n = some (address + n) := by
  rw [memorySize] at h
  exact checkedSum_of_lt (by omega)

namespace RegisterFile

variable {r : RegisterFile}

/-- A register that can be read is in its place. -/
theorem checkedRead_of_read {x : Nat} {byte : UInt8} (h : r.read x = .ok byte) :
    r.checkedRead x = some byte := by
  unfold read at h
  split at h
  · rename_i small
    cases h
    exact r.checkedRead_of_lt small
  · cases h

theorem checkedArithmetic_of_arithmetic {op : Arithmetic} {x y : Nat} {written : RegisterFile}
    (h : r.arithmetic op x y = .ok written) : r.checkedArithmetic op x y = some written := by
  obtain ⟨a, first, h⟩ := bind_eq_ok_iff.1 h
  obtain ⟨b, second, h⟩ := bind_eq_ok_iff.1 h
  obtain ⟨put, third, h⟩ := bind_eq_ok_iff.1 h
  obtain ⟨small, rfl⟩ := write_eq_ok_iff.1 third
  cases h
  have first : (bif op.readsTarget then r.checkedRead x else some 0) = some a := by
    cases reads : op.readsTarget with
    | true =>
      rw [reads] at first
      exact checkedRead_of_read first
    | false =>
      rw [reads] at first
      cases first
      rfl
  rw [checkedArithmetic, first, some_bind, checkedRead_of_read second, some_bind,
    r.checkedWrite_of_lt small, some_bind, checkedReport_eq]

end RegisterFile

namespace Machine

variable {m : Machine}

theorem checkedAnswer_eq {test : Test} {expected : Bool}
    (fits : (Instruction.skip test expected).IsEncodable) {answer : Bool}
    (h : m.answer test = .ok answer) : m.checkedAnswer test = some answer := by
  cases test with
  | byte x value =>
    obtain ⟨a, read, h⟩ := bind_eq_ok_iff.1 h
    cases h
    rw [checkedAnswer, RegisterFile.checkedRead_of_read read]
    rfl
  | register x y =>
    obtain ⟨a, readX, h⟩ := bind_eq_ok_iff.1 h
    obtain ⟨b, readY, h⟩ := bind_eq_ok_iff.1 h
    cases h
    rw [checkedAnswer, RegisterFile.checkedRead_of_read readX,
      RegisterFile.checkedRead_of_read readY]
    rfl
  | key x =>
    obtain ⟨a, read, h⟩ := bind_eq_ok_iff.1 h
    rw [checkedAnswer, RegisterFile.checkedRead_of_read read, some_bind]
    unfold Keypad.isHeld at h
    split at h
    · rename_i small
      cases h
      exact Vector.getElem?_eq_getElem small
    · cases h

theorem checkedDraw_eq {x y : UInt8} (hx : Instruction.IsDigit x) (hy : Instruction.IsDigit y)
    (rows : UInt8) : m.checkedDraw x y rows = some (m.draw x y rows) := by
  obtain ⟨across, readX⟩ := m.registers.exists_read hx
  obtain ⟨down, readY⟩ := m.registers.exists_read hy
  rw [checkedDraw, RegisterFile.checkedRead_of_read readX, some_bind,
    RegisterFile.checkedRead_of_read readY, some_bind, draw, drawSprite, readX, readY]
  cases m.memory.slice m.index rows.toNat with
  | error fault => rfl
  | ok sprite =>
    simp only [Frame.checkedPaint_eq, RegisterFile.checkedSetFlag_eq, some_bind]
    rfl

theorem checkedDigitsToMemory_eq (m : Machine) (byte : UInt8) :
    m.checkedDigitsToMemory byte = some (m.digitsToMemory byte) := by
  refine checkedSweep_eq (fun memory item mem => ?_) m.memory
  obtain ⟨digit, i⟩ := item
  have few : i < 3 := (List.getElem?_eq_some_iff.1 (List.mk_mem_zipIdx_iff_getElem?.1 mem)).1
  dsimp only
  rw [checkedSum_address m.index_lt (by omega)]
  rfl

theorem checkedRegistersToMemory_eq {x : UInt8} (h : Instruction.IsDigit x) :
    m.checkedRegistersToMemory x = some (m.registersToMemory x) := by
  refine checkedSweep_eq (fun memory r mem => ?_) m.memory
  have small := lt_of_mem_transferred h mem
  rw [checkedSum_address m.index_lt (by omega), some_bind, m.registers.checkedRead_of_lt small,
    m.registers.read_of_lt small]
  rfl

theorem checkedMemoryToRegisters_eq {x : UInt8} (h : Instruction.IsDigit x) :
    m.checkedMemoryToRegisters x = some (m.memoryToRegisters x) := by
  refine checkedSweep_eq (fun registers r mem => ?_) m.registers
  have small := lt_of_mem_transferred h mem
  rw [checkedSum_address m.index_lt (by omega), some_bind]
  cases m.memory.read (m.index + r) with
  | error fault => rfl
  | ok byte =>
    rw [ok_bind, registers.write_of_lt small]
    simp only [registers.checkedWrite_of_lt small]
    rfl

theorem checkedFinishTransfer_eq (m : Machine) (x : UInt8) (outcome : Except Fault Unit) :
    m.checkedFinishTransfer x outcome = some (m.finishTransfer x outcome) := by
  cases outcome with
  | error fault => rfl
  | ok done =>
    have low : m.index < 4096 := m.index_lt
    have small := x.toNat_lt
    rw [checkedFinishTransfer, checkedSum_address m.index_lt small, some_bind,
      checkedSum_of_lt (by omega)]
    rfl

/-- An instruction in memory whose operands fit passes no limit. -/
theorem checkedExecute_eq {i : Instruction} (fits : i.IsEncodable)
    (room : m.stack.size ≤ CallStack.capacity) (inside : m.pc < memorySize) :
    m.checkedExecute i = some (m.execute i) := by
  -- Registers named by an instruction that fits are read and written in their places.
  have reads {x : UInt8} (h : Instruction.IsDigit x) : ∃ byte,
      m.registers.read x.toNat = .ok byte ∧ m.registers.checkedRead x.toNat = some byte := by
    obtain ⟨byte, read⟩ := m.registers.exists_read h
    exact ⟨byte, read, RegisterFile.checkedRead_of_read read⟩
  have writes {x : UInt8} (h : Instruction.IsDigit x) (byte : UInt8) : ∃ written,
      m.registers.write x.toNat byte = .ok written ∧
        m.registers.checkedWrite x.toNat byte = some written :=
    ⟨_, m.registers.write_of_lt h byte, m.registers.checkedWrite_of_lt h byte⟩
  cases i with
  | system | clear | jump | setIndex => rfl
  | ret =>
    rw [checkedExecute, execute, CallStack.checkedPop_eq room, some_bind]
    cases m.stack.pop <;> rfl
  | call target =>
    rw [checkedExecute, execute, checkedSum_address inside (by decide), some_bind,
      CallStack.checkedPush_eq room, some_bind]
    cases m.stack.push (m.pc + 2) <;> rfl
  | skip test expected =>
    obtain ⟨answer, h⟩ := m.exists_answer fits
    rw [checkedExecute, execute, checkedAnswer_eq fits h, h]
    rfl
  | set x value =>
    obtain ⟨written, write, checked⟩ := writes (x := x) fits value
    rw [checkedExecute, execute, checked, write]
    rfl
  | increase x value =>
    obtain ⟨byte, read, checked⟩ := reads (x := x) fits
    obtain ⟨written, write, checked'⟩ := writes (x := x) fits (byte + value)
    rw [checkedExecute, execute, checked, read, some_bind, checked', ok_bind, write]
    rfl
  | arithmetic op x y =>
    obtain ⟨written, h⟩ := m.registers.exists_arithmetic op fits.1 fits.2
    rw [checkedExecute, execute, RegisterFile.checkedArithmetic_of_arithmetic h, h]
    rfl
  | jumpOffset base =>
    have low : base.toNat < memorySize := fits
    rw [checkedExecute, execute, m.registers.checkedRead_of_lt (by decide),
      m.registers.read_of_lt (by decide), some_bind, checkedSum_address low (UInt8.toNat_lt _)]
    rfl
  | random x mask =>
    obtain ⟨written, write, checked⟩ := writes (x := x) fits (m.random.next.1 &&& mask)
    simp only [checkedExecute, execute, checked, write]
    rfl
  | draw x y rows => exact checkedDraw_eq fits.1 fits.2.1 rows
  | readDelay x =>
    obtain ⟨written, write, checked⟩ := writes (x := x) fits m.registers.delay
    rw [checkedExecute, execute, checked, write]
    rfl
  | awaitKey x | setDelay x | setSound x =>
    obtain ⟨byte, read, checked⟩ := reads (x := x) fits
    rw [checkedExecute, execute, checked, read]
    rfl
  | increaseIndex x =>
    obtain ⟨byte, read, checked⟩ := reads (x := x) fits
    rw [checkedExecute, execute, checked, read, some_bind,
      checkedSum_address m.index_lt byte.toNat_lt]
    rfl
  | pointGlyph x =>
    obtain ⟨byte, read, checked⟩ := reads (x := x) fits
    rw [checkedExecute, execute, checked, read, some_bind,
      checkedSum_address (by decide) (by omega)]
    rfl
  | storeDecimal x =>
    obtain ⟨byte, read, checked⟩ := reads (x := x) fits
    simp only [checkedExecute, execute, storeDecimal, checked, read, some_bind,
      checkedDigitsToMemory_eq]
    rfl
  | storeRegisters x =>
    simp only [checkedExecute, execute, storeRegisters, checkedRegistersToMemory_eq fits, some_bind,
      checkedFinishTransfer_eq]
  | loadRegisters x =>
    simp only [checkedExecute, execute, loadRegisters, checkedMemoryToRegisters_eq fits, some_bind,
      checkedFinishTransfer_eq]

/-- At the last address of 16 bits a call would have nowhere to return to. -/
example (random : Random) :
    ((fresh random).withPc ⟨0xFFFF, by decide⟩).checkedExecute (.call 0x200) = none := rfl

/-- A machine in memory moves its program counter without passing a limit. -/
theorem checkedProceed_eq (inside : m.pc < memorySize) (progress : Progress) :
    m.checkedProceed progress = some (m.proceed progress) := by
  cases progress with
  | next | skip =>
    rw [checkedProceed, checkedSum_address inside (by decide)]
    rfl
  | jump | hold => rfl

theorem checkedConclude_eq (inside : m.pc < memorySize) (progress : Progress) (cycle : Cycle) :
    m.checkedConclude progress cycle = some (m.conclude progress cycle) := by
  rw [checkedConclude, conclude, checkedProceed_eq inside, some_bind]
  cases m.proceed progress with
  | error fault => rfl
  | ok moved =>
    by_cases running : moved.mode = .running
    · simp only [running, if_true]
      cases moved.settle <;> rfl
    · simp only [running, if_false]
      rfl

theorem checkedInstructionCycle_eq (formed : m.WellFormed) (inside : m.pc < memorySize) :
    m.checkedInstructionCycle = some m.instructionCycle := by
  cases fetch : m.fetch with
  | error fault => simp only [checkedInstructionCycle, instructionCycle, fetch]
  | ok i =>
    have execute := checkedExecute_eq (isEncodable_of_fetch fetch) formed.calls inside
    have pc : (m.execute i).1.pc = m.pc := congrArg Register.value (m.execute_sameControl i).pc
    rw [← pc] at inside
    simp only [checkedInstructionCycle, instructionCycle, fetch, execute, some_bind]
    generalize m.execute i = done at inside
    obtain ⟨after, fault | progress⟩ := done
    · rfl
    · exact checkedConclude_eq inside progress _

theorem checkedKeyCycle_eq (sound : m.Sound) (mode : m.mode = .awaitingKey) :
    m.checkedKeyCycle = some m.keyCycle := by
  have inside : m.pc < memorySize := sound.pc_lt (by simp [mode]) (by simp [mode])
  cases wait : m.keypad.wait with
  | idle | waiting register => simp only [checkedKeyCycle, keyCycle, Keypad.take, wait]
  | resolved register key =>
    have fits : register.toNat < 16 := by
      have fits := sound.wait
      rw [wait] at fits
      exact fits.1
    simp only [checkedKeyCycle, keyCycle, Keypad.take, wait, receiveKey,
      RegisterFile.writeNat_toNat, m.registers.write_of_lt fits,
      m.registers.checkedWrite_of_lt fits, some_bind, ok_bind]
    exact checkedConclude_eq (m := { m with
      registers := { m.registers with v := m.registers.v.set register.toNat key fits }
      keypad := m.keypad.cancel, mode := .running }) inside _ _

theorem checkedStep_eq (sound : m.Sound) : m.checkedStep = some m.step := by
  unfold checkedStep step
  cases mode : m.mode with
  | idle | halted | paused => rfl
  | awaitingKey =>
    dsimp only
    rw [checkedKeyCycle_eq sound mode]
    rfl
  | running =>
    have loaded := sound.loaded (by simp [mode])
    have runs : m.checkedRunCycle = some m.runCycle := by
      unfold checkedRunCycle runCycle
      rw [inProgram_of_loaded loaded]
      by_cases inside : m.InProgram
      · simp only [inside, decide_true]
        exact checkedInstructionCycle_eq sound.toWellFormed (inside.pc_lt sound.toWellFormed)
      · simp only [inside, decide_false]
    dsimp only
    rw [runs]
    rfl

theorem checkedSingleStep_eq (sound : m.Sound) : m.checkedSingleStep = some m.singleStep := by
  unfold checkedSingleStep singleStep
  by_cases paused : m.mode = .paused
  · have unpaused : (m.withMode m.resumeTo).Sound := sound.unpause paused m.clock
    rw [if_pos paused, if_pos paused, checkedStep_eq unpaused]
    rfl
  · rw [if_neg paused, if_neg paused, checkedStep_eq sound]

theorem checkedSyncTimers_eq (m : Machine) (now : Int) :
    m.checkedSyncTimers now = some (m.syncTimers now) := by
  unfold checkedSyncTimers syncTimers
  split
  · rw [Clock.checkedSync_eq]
    rfl
  · rfl

theorem checkedLoad_eq (m : Machine) (program : List UInt8) :
    m.checkedLoad program = some (m.load program) := by
  rw [checkedLoad, load, Memory.checkedLoad_eq, some_bind]
  cases Memory.load program <;> rfl

theorem checkedPress_eq (m : Machine) (key : UInt8) : m.checkedPress key = some (m.press key) := by
  rw [checkedPress, press, Keypad.checkedPress_eq]
  cases m.keypad.press key <;> rfl

theorem checkedRelease_eq (m : Machine) (key : UInt8) :
    m.checkedRelease key = some (m.release key) := by
  rw [checkedRelease, release, Keypad.checkedRelease_eq]
  cases m.keypad.release key <;> rfl

/-- No call on a sound machine passes a limit. -/
theorem checkedPerform_eq (sound : m.Sound) (call : Call) :
    m.checkedPerform call = some (m.perform call) := by
  cases call with
  | load program =>
    rw [checkedPerform, checkedLoad_eq]
    rfl
  | step =>
    rw [checkedPerform, checkedStep_eq sound]
    rfl
  | singleStep =>
    rw [checkedPerform, checkedSingleStep_eq sound]
    rfl
  | tick now =>
    rw [checkedPerform, checkedSyncTimers_eq, some_bind, checkedStep_eq (sound.syncTimers now)]
    rfl
  | syncTimers now =>
    rw [checkedPerform, checkedSyncTimers_eq]
    rfl
  | press key =>
    rw [checkedPerform, checkedPress_eq]
    rfl
  | release key =>
    rw [checkedPerform, checkedRelease_eq]
    rfl
  | pause | resume | takeFrame => rfl

theorem checkedHistory_of_sound (sound : m.Sound) (calls : List Call) :
    m.checkedHistory calls = some (m.after calls, m.answers calls) := by
  induction calls generalizing m with
  | nil => rfl
  | cons call rest ih =>
    rw [checkedHistory, checkedPerform_eq sound, some_bind]
    dsimp only
    rw [ih (sound.perform call)]
    rfl

theorem checkedFresh_eq (random : Random) : checkedFresh random = some (fresh random) := by
  rw [checkedFresh, Memory.checkedBlank_eq]
  rfl

/-- A new machine and all calls of it stay within the limits, and come to the same machine and
the same answers as if the limits were not watched. -/
theorem checkedHistory_eq (random : Random) (calls : List Call) :
    (do let m ← checkedFresh random; m.checkedHistory calls) =
      some ((fresh random).after calls, (fresh random).answers calls) := by
  rw [checkedFresh_eq, some_bind, checkedHistory_of_sound (sound_fresh random)]

end Machine

end Chip8
