import Chip8.Proofs.Faults
import Chip8.Proofs.Transfer

/-!
# What a failing step leaves behind

A step that fails halts the machine and records its fault, and of everything else it changes at
most what the instruction had moved before it failed: the V registers of a read from memory, or
the bytes of a write to memory (`Machine.Failed`). `execute_leaves` says so of the instruction,
`StepEffect.failed` of the step, and `failing_step_leaves` of every step or single step of a
machine that calls lead to.
-/

namespace Chip8
set_option autoImplicit false

namespace Machine

variable {m after : Machine} {fault : Fault}

/-- What an instruction that is refused leaves of the machine. -/
def Leaves (m : Machine) : Instruction → Machine → Prop
  | .storeDecimal x, after => ∃ byte, m.registers.read x.toNat = .ok byte ∧
    after = { m with memory := (m.digitsToMemory byte).1 }
  | .storeRegisters x, after => after = { m with memory := (m.registersToMemory x).1 }
  | .loadRegisters x, after => after = m.withRegisters (m.memoryToRegisters x).1
  | _, after => after = m

theorem whole_of_error {effect : Except Fault (Machine × Progress)}
    (h : (m.whole effect).2 = .error fault) : (m.whole effect).1 = m := by
  cases effect with
  | error => rfl
  | ok done => cases h

theorem changeRegisters_of_error {registers : Except Fault RegisterFile}
    (h : (m.changeRegisters registers).2 = .error fault) : (m.changeRegisters registers).1 = m :=
  whole_of_error h

/-- A transfer that is refused at its end leaves I where it was. -/
theorem finishTransfer_of_error {x : UInt8} {outcome : Except Fault Unit}
    (h : (m.finishTransfer x outcome).2 = .error fault) : (m.finishTransfer x outcome).1 = m := by
  cases outcome with
  | error => rfl
  | ok done => exact changeRegisters_of_error h

/-- An instruction whose operands fit and that is refused leaves the machine alone, but for
what a transfer had moved. -/
theorem execute_leaves {i : Instruction} (fits : i.IsEncodable)
    (room : m.stack.size ≤ CallStack.capacity) (h : (m.execute i).2 = .error fault) :
    m.Leaves i (m.execute i).1 := by
  have refuses := (execute_error_iff fits room).1 h
  cases i with
  | ret | call => exact whole_of_error h
  | draw x y rows => exact whole_of_error h
  | increaseIndex => exact changeRegisters_of_error h
  | storeDecimal x =>
    obtain ⟨byte, readX⟩ := m.registers.exists_read (x := x) fits
    refine ⟨byte, readX, ?_⟩
    simp only [execute, storeDecimal, readX]
  | storeRegisters x => exact finishTransfer_of_error h
  | loadRegisters x => exact finishTransfer_of_error h
  | system | clear | jump | skip | set | increase | arithmetic | setIndex | jumpOffset | random
  | readDelay | awaitKey | setDelay | setSound | pointGlyph => cases refuses

/-- The parts of a machine that no failure touches. -/
structure Kept (m after : Machine) : Prop where
  pc : after.registers.pc = m.registers.pc
  index : after.registers.index = m.registers.index
  delay : after.registers.delay = m.registers.delay
  sound : after.registers.sound = m.registers.sound
  clock : after.clock = m.clock
  stack : after.stack = m.stack
  frame : after.frame = m.frame
  keypad : after.keypad = m.keypad
  random : after.random = m.random
  programSize : after.programSize = m.programSize

/-- What becomes of a machine that fails in a step. -/
structure Failed (m : Machine) (fault : Fault) (after : Machine) : Prop extends m.Kept after where
  mode : after.mode = .halted
  fault : after.fault = some fault
  /-- Only a read from memory changes V registers. -/
  v : (∀ x, m.fetch ≠ .ok (.loadRegisters x)) → after.registers.v = m.registers.v
  /-- A read from memory filled the V registers up to the end of memory. -/
  loaded : ∀ x, m.fetch = .ok (.loadRegisters x) → ∀ r, after.registers.read r =
    if r ≤ min x.toNat (0xFFF - m.index) then m.memory.read (m.index + r)
    else m.registers.read r
  /-- Only a write to memory changes memory. -/
  memory : (∀ x, m.fetch ≠ .ok (.storeRegisters x) ∧ m.fetch ≠ .ok (.storeDecimal x)) →
    after.memory = m.memory
  /-- A write of V registers went up to the end of memory. -/
  stored : ∀ x, m.fetch = .ok (.storeRegisters x) → ∀ address, after.memory.read address =
    if m.index ≤ address ∧ address ≤ m.index + min x.toNat (0xFFF - m.index)
    then m.registers.read (address - m.index) else m.memory.read address
  /-- A write of the hundreds, tens and ones of V`x` went up to the end of memory, which came
  before the ones. -/
  digits : ∀ x, m.fetch = .ok (.storeDecimal x) → 0xFFF < m.index + 2 ∧
    ∃ byte hundreds tens ones : UInt8, m.registers.read x.toNat = .ok byte ∧
      hundreds.toNat < 10 ∧ tens.toNat < 10 ∧ ones.toNat < 10 ∧
      100 * hundreds.toNat + 10 * tens.toNat + ones.toNat = byte.toNat ∧
      ∀ address, after.memory.read address =
        if address = m.index then .ok hundreds
        else if address = m.index + 1 ∧ address ≤ 0xFFF then .ok tens
        else m.memory.read address

theorem kept_fail (m : Machine) (v : Vector UInt8 16) (memory : Memory) (fault : Fault) :
    m.Kept ({ m with memory, registers := { m.registers with v } }.fail fault) :=
  ⟨rfl, rfl, rfl, rfl, rfl, rfl, rfl, rfl, rfl, rfl⟩

/-- A machine that fails over anything but a transfer stays as it is. -/
theorem failed_of_still (loads : ∀ x, m.fetch ≠ .ok (.loadRegisters x))
    (stores : ∀ x, m.fetch ≠ .ok (.storeRegisters x) ∧ m.fetch ≠ .ok (.storeDecimal x)) :
    m.Failed fault (m.fail fault) where
  toKept := m.kept_fail m.registers.v m.memory fault
  mode := rfl
  fault := rfl
  v _ := rfl
  loaded x fetch := absurd fetch (loads x)
  memory _ := rfl
  stored x fetch := absurd fetch (stores x).1
  digits x fetch := absurd fetch (stores x).2

/-- A machine that fails while it reads from memory. -/
theorem failed_of_loadRegisters {x : UInt8} (fetch : m.fetch = .ok (.loadRegisters x)) :
    m.Failed fault ((m.withRegisters (m.memoryToRegisters x).1).fail fault) := by
  have read := m.read_memoryToRegisters (isEncodable_of_fetch fetch)
  obtain ⟨v, moved⟩ := m.memoryToRegisters_v x
  rw [moved] at read ⊢
  constructor
  case loaded =>
    intro y fetch'
    cases fetch.symm.trans fetch'
    exact read
  case toKept => exact m.kept_fail v m.memory fault
  case mode | fault => rfl
  case v => exact fun other => absurd fetch (other x)
  case memory => exact fun _ => rfl
  all_goals
    intro y fetch'
    cases fetch.symm.trans fetch'

/-- A machine that fails while it writes V registers to memory. -/
theorem failed_of_storeRegisters {x : UInt8} (fetch : m.fetch = .ok (.storeRegisters x)) :
    m.Failed fault ({ m with memory := (m.registersToMemory x).1 }.fail fault) := by
  constructor
  case stored =>
    intro y fetch'
    cases fetch.symm.trans fetch'
    exact m.read_registersToMemory (isEncodable_of_fetch fetch)
  case toKept => exact m.kept_fail m.registers.v _ fault
  case mode | fault => rfl
  case v => exact fun _ => rfl
  case memory => exact fun other => absurd fetch (other x).1
  all_goals
    intro y fetch'
    cases fetch.symm.trans fetch'

/-- A machine that fails while it writes decimal digits to memory. -/
theorem failed_of_storeDecimal {x byte : UInt8} (fetch : m.fetch = .ok (.storeDecimal x))
    (readX : m.registers.read x.toNat = .ok byte) (far : 0xFFF < m.index + 2) :
    m.Failed fault ({ m with memory := (m.digitsToMemory byte).1 }.fail fault) := by
  constructor
  case digits =>
    intro y fetch'
    cases fetch.symm.trans fetch'
    obtain ⟨hundreds, tens, ones, ltH, ltT, ltO, sum, written⟩ := m.exists_digitsToMemory byte
    refine ⟨far, byte, hundreds, tens, ones, readX, ltH, ltT, ltO, sum, fun address => ?_⟩
    have beyond : ¬ (address = m.index + 2 ∧ address ≤ 0xFFF) := by omega
    refine (written address).trans ?_
    rw [if_neg beyond]
  case toKept => exact m.kept_fail m.registers.v _ fault
  case mode | fault => rfl
  case v => exact fun _ => rfl
  case memory => exact fun other => absurd fetch (other x).2
  all_goals
    intro y fetch'
    cases fetch.symm.trans fetch'

/-- The step of a loaded machine that fails. -/
theorem StepEffect.failed (effect : m.StepEffect after (.error fault)) (sound : m.Sound)
    (loaded : m.mode ≠ .idle) : m.Failed fault after := by
  cases effect with
  | idle mode => exact absurd mode loaded
  | unfetched _ _ fetch =>
    apply failed_of_still <;> simp [fetch]
  | @refused _ _ i _ fetch execute =>
    have fits := isEncodable_of_fetch fetch
    have refuses := (execute_error_iff fits sound.calls).1 execute
    have leaves := execute_leaves fits sound.calls execute
    generalize (m.execute i).1 = left at leaves
    cases i with
    | storeDecimal x =>
      obtain ⟨byte, readX, rfl⟩ := leaves
      exact failed_of_storeDecimal fetch readX refuses.1
    | storeRegisters x =>
      cases leaves
      exact failed_of_storeRegisters fetch
    | loadRegisters x =>
      cases leaves
      exact failed_of_loadRegisters fetch
    | ret | call | draw | increaseIndex =>
      cases leaves
      apply failed_of_still <;> simp [fetch]
    | system | clear | jump | skip | set | increase | arithmetic | setIndex | jumpOffset | random
    | readDelay | awaitKey | setDelay | setSound | pointGlyph => cases refuses

theorem step_failed (sound : m.Sound) (loaded : m.mode ≠ .idle)
    (failed : m.step.2 = .error fault) : m.Failed fault m.step.1 := by
  have effect := step_effect sound
  rw [failed] at effect
  exact effect.failed sound loaded

/-- The single step of a loaded machine that fails, be it paused or not. -/
theorem singleStep_failed (sound : m.Sound) (loaded : m.mode ≠ .idle)
    (failed : m.singleStep.2 = .error fault) : m.Failed fault m.singleStep.1 := by
  by_cases paused : m.mode = .paused
  · have unpaused : (m.withMode m.resumeTo).Sound := sound.unpause paused m.clock
    have loaded' : (m.withMode m.resumeTo).mode ≠ .idle := by
      rw [ne_eq, unpaused.idle_iff]
      exact sound.loaded loaded
    rw [singleStep_of_paused paused] at failed ⊢
    have left := step_failed unpaused loaded' failed
    have stays : (m.withMode m.resumeTo).step.1.pause = (m.withMode m.resumeTo).step.1 := by
      simp [pause, left.mode, Mode.isActive]
    rw [stays]
    exact { left with }
  · rw [singleStep_of_not_paused paused] at failed ⊢
    exact step_failed sound loaded failed

/-- A step or single step that fails on a machine that calls lead to, with a program loaded,
halts it, records the fault and leaves everything else as it was, but for the bytes that a
transfer had moved by then. -/
theorem failing_step_leaves (random : Random) (calls : List Call) (call : Call) (fault : Fault) :
    let m := (fresh random).after calls
    m.programSize ≠ none → call = .step ∨ call = .singleStep →
    (m.perform call).2 = .cycle (.error fault) → m.Failed fault (m.perform call).1 := by
  intro m loaded called failed
  have sound : m.Sound := sound_after random calls
  have ready : m.mode ≠ .idle := fun idle => loaded (sound.idle_iff.1 idle)
  rcases called with rfl | rfl
  · exact step_failed sound ready (Answer.cycle.inj failed)
  · exact singleStep_failed sound ready (Answer.cycle.inj failed)

/-- A program of three instructions, of which the last has places in memory for two of three
digits. -/
def digitsProgram : List UInt8 := [0x60, 0xFE, 0xAF, 0xFE, 0xF0, 0x33]

/-- The first two put 254 into V0 and point I at the last two places. -/
theorem after_digitsProgram (placed : m.Placed digitsProgram 0) :
    let before := m.after [.step, .step]
    before.Placed digitsProgram 4 ∧ before.registers.read 0 = .ok 254 ∧ before.index = 0xFFE := by
  obtain ⟨second, step, placed, pc, stands⟩ := placed.step (i := .set 0 254) 2 placed.fetch rfl
    nofun rfl (congrArg (· + 2) placed.pc) (by decide)
  obtain ⟨third, step', placed', pc', stands'⟩ := placed.step (i := .setIndex 0xFFE) 4 placed.fetch
    rfl nofun rfl (congrArg (· + 2) placed.pc) (by decide)
  have readV : second.registers.read 0 = .ok 254 := by
    rw [stands]
    exact RegisterFile.read_of_write (m.registers.write_of_lt (x := 0) (by decide) 254) 0
  have same : third.registers.read 0 = second.registers.read 0 := by
    rw [stands']
    rfl
  have index : third.index = 0xFFE := by
    rw [stands']
    rfl
  simp only [after_cons, after_nil, perform, step, step']
  exact ⟨placed', same.trans readV, index⟩

theorem failing_step_leaves_digits :
    let m := (fresh (.ofSeed 0)).after [.load digitsProgram, .step, .step]
    let fault := Fault.memoryOutOfBounds 0x1000
    let after := (m.perform .step).1
    m.programSize ≠ none ∧ (m.perform .step).2 = .cycle (.error fault) ∧ m.Failed fault after ∧
      after.memory.read 0xFFE = .ok 2 ∧ after.memory.read 0xFFF = .ok 5 ∧
      after.memory.read 0x1000 = .error fault := by
  intro m fault after
  have reached : m = ((fresh (.ofSeed 0)).loaded digitsProgram).after [.step, .step] :=
    after_load _ (by decide) _
  have start : ((fresh (.ofSeed 0)).loaded digitsProgram).Placed digitsProgram 0 :=
    placed_loaded _ (by decide) (by decide)
  obtain ⟨placed, readV, index⟩ := after_digitsProgram start
  rw [← reached] at placed readV index
  have fetch : m.fetch = .ok (.storeDecimal 0) := placed.fetch
  have loaded : m.programSize ≠ none := by simp [placed.size]
  have refuses : m.Refuses (.storeDecimal 0) fault := ⟨by rw [index]; decide, rfl⟩
  have failed : (m.perform .step).2 = .cycle (.error fault) :=
    congrArg Answer.cycle ((running_step_error_iff placed.sound placed.mode).2
      ⟨placed.inProgram, .inr ⟨_, fetch, refuses⟩⟩)
  have leaves : m.Failed fault after := failing_step_leaves _ _ _ _ loaded (.inl rfl) failed
  obtain ⟨-, byte, hundreds, tens, ones, readX, ltH, ltT, ltO, sum, written⟩ :=
    leaves.digits 0 fetch
  cases readV.symm.trans readX
  change _ = 254 at sum
  have two : hundreds = 2 := UInt8.toNat_inj.1 (show hundreds.toNat = 2 by omega)
  have five : tens = 5 := UInt8.toNat_inj.1 (show tens.toNat = 5 by omega)
  refine ⟨loaded, failed, leaves, ?_, ?_, ?_⟩
  · rw [written, index, if_pos rfl, two]
  · rw [written, index, if_neg (by decide), if_pos (by decide), five]
  · rw [written, index, if_neg (by decide), if_neg (by decide)]
    rfl

end Machine

end Chip8
