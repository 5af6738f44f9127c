import Chip8.Proofs.Calls

/-!
# When a step fails

`Machine.Raises` lists the grounds on which a machine that runs inside its program fails, each
with its fault, in terms of the word at the program counter. `step_error_iff` says that the
list is complete and that its grounds exclude each other.
-/

namespace Chip8
set_option autoImplicit false

/-- The grounds on which a step inside the program can fail. -/
inductive Ground where
  /-- The word at the program counter reaches past the end of memory. -/
  | wordOutside
  /-- The word at the program counter encodes no instruction. -/
  | illegalWord
  | callsFull
  | callsEmpty
  | spriteOutside
  | digitsOutside
  /-- The sum does not fit into the index register. -/
  | sumTooWide
  | transferOutside
  /-- The transfer fits, but the index register cannot move past it. -/
  | transferAtEnd
deriving DecidableEq

/-- A word that starts in memory is refused only if its second byte lies outside. -/
theorem Memory.readWord_eq_error_iff {memory : Memory} {address : Nat} {fault : Fault}
    (h : address < memorySize) : memory.readWord address = .error fault ↔
      address = 0xFFF ∧ fault = .memoryOutOfBounds 0x1000 := by
  simp only [readWord, memory.read_of_lt h, ok_bind, bind_eq_error_iff, read_eq_error_iff,
    pure_eq_ok, reduceCtorEq, and_false, exists_false, or_false, outside]
  rw [memorySize] at *
  constructor
  · intro refused
    split at refused
    · cases refused
    · have last : address = 0xFFF := by omega
      subst last
      cases refused
      exact ⟨rfl, rfl⟩
  · rintro ⟨rfl, rfl⟩
    rfl

namespace Machine

variable {m : Machine}

/-- The word at the program counter is the one that encodes the instruction. -/
def Meets (m : Machine) (i : Instruction) : Prop :=
  i.IsEncodable ∧ m.memory.readWord m.pc = .ok i.encode

/-- On which grounds which fault is raised. -/
def Raises (m : Machine) : Ground → Fault → Prop
  | .wordOutside, fault => m.pc = 0xFFF ∧ fault = .memoryOutOfBounds 0x1000
  | .illegalWord, fault => ∃ word, m.memory.readWord m.pc = .ok word ∧
    (∀ i : Instruction, i.IsEncodable → i.encode ≠ word) ∧ fault = .illegalOpcode word.toNat
  | .callsFull, fault => ∃ target, m.Meets (.call target) ∧
    m.stack.size = 16 ∧ fault = .stackFull
  | .callsEmpty, fault => m.Meets .ret ∧ m.stack.size = 0 ∧ fault = .stackEmpty
  | .spriteOutside, fault => ∃ x y rows, m.Meets (.draw x y rows) ∧
    0x1000 < m.index + rows.toNat ∧ fault = .memoryOutOfBounds 0x1000
  | .digitsOutside, fault => ∃ x, m.Meets (.storeDecimal x) ∧
    0xFFF < m.index + 2 ∧ fault = .memoryOutOfBounds 0x1000
  | .sumTooWide, fault => ∃ x byte, m.Meets (.increaseIndex x) ∧
    m.registers.read x.toNat = .ok byte ∧ 0xFFF < m.index + byte.toNat ∧
    fault = .registerOverflow (m.index + byte.toNat) 12
  | .transferOutside, fault => ∃ x, (m.Meets (.storeRegisters x) ∨ m.Meets (.loadRegisters x)) ∧
    0xFFF < m.index + x.toNat ∧ fault = .memoryOutOfBounds 0x1000
  | .transferAtEnd, fault => ∃ x, (m.Meets (.storeRegisters x) ∨ m.Meets (.loadRegisters x)) ∧
    m.index + x.toNat = 0xFFF ∧ fault = .registerOverflow 0x1000 12

/-- Fetching is decoding the word at the program counter, and the word decodes to the
instruction that it encodes. -/
theorem meets_iff_fetch {i : Instruction} : m.Meets i ↔ m.fetch = .ok i := by
  unfold Meets fetch
  rw [bind_eq_ok_iff]
  constructor
  · rintro ⟨fits, word⟩
    exact ⟨_, word, Opcode.decode_eq_ok_iff_encode.2 ⟨fits, rfl⟩⟩
  · rintro ⟨word, read, decoded⟩
    obtain ⟨fits, rfl⟩ := Opcode.decode_eq_ok_iff_encode.1 decoded
    exact ⟨fits, read⟩

theorem fetch_error_iff {fault : Fault} (inside : m.pc < memorySize) :
    m.fetch = .error fault ↔ m.Raises .wordOutside fault ∨ m.Raises .illegalWord fault := by
  unfold fetch
  simp only [bind_eq_error_iff, Memory.readWord_eq_error_iff inside,
    Opcode.decode_eq_error_iff_encode, Raises]

/-- The step of a running machine fails inside the program, over the fetch or over the
instruction fetched. -/
theorem running_step_error_iff {fault : Fault} (sound : m.Sound) (mode : m.mode = .running) :
    m.step.2 = .error fault ↔ m.InProgram ∧
      (m.fetch = .error fault ∨ ∃ i, m.fetch = .ok i ∧ m.Refuses i fault) := by
  have refuses {i : Instruction} {fault : Fault} (fetch : m.fetch = .ok i) :
      (m.execute i).2 = .error fault ↔ m.Refuses i fault :=
    execute_error_iff (isEncodable_of_fetch fetch) sound.calls
  have effect := step_effect sound
  generalize m.step.1 = after, m.step.2 = outcome at effect
  cases effect with
  | idle other | halted other | paused other | awaiting other | received other =>
    rw [mode] at other
    cases other
  | left _ outside => simp [outside]
  | unfetched _ inside fetch => simp [inside, fetch]
  | refused _ inside fetch execute =>
    simp [inside, fetch, ← refuses fetch, execute]
  | held _ inside fetch => simp [inside, fetch, Refuses]
  | executed _ inside fetch execute =>
    simp [inside, fetch, ← refuses fetch, execute]

/-- The ground of a fault, given what was fetched. -/
def groundOf (fetched : Except Fault Instruction) (fault : Fault) : Ground :=
  match fetched, fault with
  | .error (.memoryOutOfBounds _), _ => .wordOutside
  | .error _, _ => .illegalWord
  | .ok (.call _), _ => .callsFull
  | .ok .ret, _ => .callsEmpty
  | .ok (.draw _ _ _), _ => .spriteOutside
  | .ok (.storeDecimal _), _ => .digitsOutside
  | .ok (.increaseIndex _), _ => .sumTooWide
  | .ok _, .registerOverflow _ _ => .transferAtEnd
  | .ok _, _ => .transferOutside

/-- A ground is raised exactly if the fetch or the instruction fetched fails so. -/
theorem raises_iff {ground : Ground} {fault : Fault} (inside : m.pc < memorySize) :
    m.Raises ground fault ↔
      (m.fetch = .error fault ∨ ∃ i, m.fetch = .ok i ∧ m.Refuses i fault) ∧
        ground = groundOf m.fetch fault := by
  constructor
  · -- The word decides what is fetched, and what is fetched decides the ground.
    intro raised
    cases ground with
    | wordOutside =>
      have fetch := (fetch_error_iff inside).2 (.inl raised)
      obtain ⟨-, rfl⟩ := raised
      exact ⟨.inl fetch, by rw [fetch]; rfl⟩
    | illegalWord =>
      have fetch := (fetch_error_iff inside).2 (.inr raised)
      obtain ⟨word, -, -, rfl⟩ := raised
      exact ⟨.inl fetch, by rw [fetch]; rfl⟩
    | callsFull =>
      obtain ⟨target, meets, refused⟩ := raised
      have fetch := meets_iff_fetch.1 meets
      exact ⟨.inr ⟨_, fetch, refused⟩, by rw [fetch]; rfl⟩
    | callsEmpty =>
      obtain ⟨meets, refused⟩ := raised
      have fetch := meets_iff_fetch.1 meets
      exact ⟨.inr ⟨_, fetch, refused⟩, by rw [fetch]; rfl⟩
    | spriteOutside =>
      obtain ⟨x, y, rows, meets, refused⟩ := raised
      have fetch := meets_iff_fetch.1 meets
      exact ⟨.inr ⟨_, fetch, refused⟩, by rw [fetch]; rfl⟩
    | digitsOutside =>
      obtain ⟨x, meets, refused⟩ := raised
      have fetch := meets_iff_fetch.1 meets
      exact ⟨.inr ⟨_, fetch, refused⟩, by rw [fetch]; rfl⟩
    | sumTooWide =>
      obtain ⟨x, byte, meets, refused⟩ := raised
      have fetch := meets_iff_fetch.1 meets
      exact ⟨.inr ⟨_, fetch, byte, refused⟩, by rw [fetch]; rfl⟩
    | transferOutside =>
      obtain ⟨x, meets | meets, far, rfl⟩ := raised
      all_goals
        have fetch := meets_iff_fetch.1 meets
        exact ⟨.inr ⟨_, fetch, .inl ⟨far, rfl⟩⟩, by rw [fetch]; rfl⟩
    | transferAtEnd =>
      obtain ⟨x, meets | meets, last, rfl⟩ := raised
      all_goals
        have fetch := meets_iff_fetch.1 meets
        exact ⟨.inr ⟨_, fetch, .inr ⟨last, rfl⟩⟩, by rw [fetch]; rfl⟩
  · rintro ⟨fetch | ⟨i, fetch, refused⟩, rfl⟩
    · rcases (fetch_error_iff inside).1 fetch with raised | raised
      · obtain ⟨-, rfl⟩ := id raised
        rwa [fetch]
      · obtain ⟨word, -, -, rfl⟩ := id raised
        rwa [fetch]
    · have meets := meets_iff_fetch.2 fetch
      rw [fetch]
      cases i with
      | call target => exact ⟨target, meets, refused⟩
      | ret => exact ⟨meets, refused⟩
      | draw x y rows => exact ⟨x, y, rows, meets, refused⟩
      | storeDecimal x => exact ⟨x, meets, refused⟩
      | increaseIndex x =>
        obtain ⟨byte, refused⟩ := refused
        exact ⟨x, byte, meets, refused⟩
      | storeRegisters x =>
        rcases refused with ⟨far, rfl⟩ | ⟨last, rfl⟩
        · exact ⟨x, .inl meets, far, rfl⟩
        · exact ⟨x, .inl meets, last, rfl⟩
      | loadRegisters x =>
        rcases refused with ⟨far, rfl⟩ | ⟨last, rfl⟩
        · exact ⟨x, .inr meets, far, rfl⟩
        · exact ⟨x, .inr meets, last, rfl⟩
      | system | clear | jump | skip | set | increase | arithmetic | setIndex | jumpOffset
      | random | readDelay | awaitKey | setDelay | setSound | pointGlyph => cases refused

/-- One ground alone is raised, with one fault. -/
def Fails (m : Machine) (fault : Fault) : Prop :=
  ∃ ground, m.Raises ground fault ∧
    ∀ other fault', m.Raises other fault' → other = ground ∧ fault' = fault

/-- The step of a running machine fails inside its program on exactly one of the grounds. -/
theorem running_step_error_iff_fails {fault : Fault} (sound : m.Sound)
    (mode : m.mode = .running) : m.step.2 = .error fault ↔ m.InProgram ∧ m.Fails fault := by
  have raised {ground : Ground} {fault : Fault} (inside : m.InProgram) :
      m.Raises ground fault ↔ m.step.2 = .error fault ∧ ground = groundOf m.fetch fault := by
    rw [raises_iff (inside.pc_lt sound.toWellFormed), running_step_error_iff sound mode]
    simp [inside]
  constructor
  · intro failed
    have inside := ((running_step_error_iff sound mode).1 failed).1
    refine ⟨inside, groundOf m.fetch fault, (raised inside).2 ⟨failed, rfl⟩, ?_⟩
    intro other fault' h
    obtain ⟨failed', rfl⟩ := (raised inside).1 h
    cases failed.symm.trans failed'
    exact ⟨rfl, rfl⟩
  · rintro ⟨inside, ground, h, -⟩
    exact ((raised inside).1 h).1

/-- The step of a machine that does not run never fails, unless nothing was loaded. -/
theorem step_error_of_not_running {fault : Fault} (sound : m.Sound) (mode : m.mode ≠ .running)
    (failed : m.step.2 = .error fault) : m.mode = .idle ∧ fault = .noProgram := by
  have effect := step_effect sound
  rw [failed] at effect
  generalize m.step.1 = after at effect
  cases effect with
  | idle idle => exact ⟨idle, rfl⟩
  | unfetched running | refused running => exact absurd running mode

theorem step_of_idle (idle : m.mode = .idle) : m.step = (m, .error .noProgram) := by
  simp [step, idle]

/-- What a fault raised by a step can be. -/
theorem fault_of_raises {ground : Ground} {fault : Fault} (h : m.Raises ground fault) :
    (∃ word, fault = .illegalOpcode word) ∨ fault = .memoryOutOfBounds 0x1000 ∨
      (∃ value, fault = .registerOverflow value 12) ∨ fault = .stackFull ∨ fault = .stackEmpty := by
  cases ground with
  | wordOutside =>
    obtain ⟨-, rfl⟩ := h
    simp
  | illegalWord =>
    obtain ⟨word, -, -, rfl⟩ := h
    simp
  | callsFull =>
    obtain ⟨target, -, -, rfl⟩ := h
    simp
  | callsEmpty =>
    obtain ⟨-, -, rfl⟩ := h
    simp
  | spriteOutside =>
    obtain ⟨x, y, rows, -, -, rfl⟩ := h
    simp
  | digitsOutside | transferOutside | transferAtEnd =>
    obtain ⟨x, -, -, rfl⟩ := h
    simp
  | sumTooWide =>
    obtain ⟨x, byte, -, -, -, rfl⟩ := h
    simp

/-- A step of a machine that calls lead to fails over the lack of a program, which changes
nothing, or while running inside the program on exactly one of the grounds. No other mode
fails, and no fault is about a register number, a key, the size of a program or a register
of another width than the index register. -/
theorem step_error_iff (random : Random) (calls : List Call) (fault : Fault) :
    let m := (fresh random).after calls
    (m.step.2 = .error fault ↔
      m.mode = .idle ∧ fault = .noProgram ∨ m.mode = .running ∧ m.InProgram ∧ m.Fails fault) ∧
    (m.mode = .idle → m.step.1 = m ∧ m.fault = none) ∧
    (m.step.2 = .error fault →
      (∀ register, fault ≠ .registerOutOfRange register) ∧ (∀ key, fault ≠ .invalidKey key) ∧
      (∀ size limit, fault ≠ .programTooLarge size limit) ∧
      (∀ value bits, fault = .registerOverflow value bits → bits = 12)) ∧
    (m.mode = .awaitingKey ∨ m.mode = .paused ∨ m.mode = .halted → m.step.2 ≠ .error fault) := by
  intro m
  have sound : m.Sound := sound_after random calls
  have causes : m.step.2 = .error fault ↔
      m.mode = .idle ∧ fault = .noProgram ∨
        m.mode = .running ∧ m.InProgram ∧ m.Fails fault := by
    by_cases running : m.mode = .running
    · rw [running_step_error_iff_fails sound running]
      simp [running]
    · constructor
      · exact fun failed => .inl (step_error_of_not_running sound running failed)
      · rintro (⟨idle, rfl⟩ | ⟨running', -⟩)
        · rw [step_of_idle idle]
        · exact absurd running' running
  refine ⟨causes, ?_, ?_, ?_⟩
  · intro idle
    exact ⟨by rw [step_of_idle idle], sound.fault_none (by simp [idle])⟩
  · intro failed
    rcases causes.1 failed with ⟨-, rfl⟩ | ⟨-, -, ground, raised, -⟩
    · simp
    · rcases fault_of_raises raised with ⟨word, rfl⟩ | rfl | ⟨value, rfl⟩ | rfl | rfl <;> simp
  · intro mode failed
    have stopped : m.mode ≠ .running ∧ m.mode ≠ .idle := by
      rcases mode with mode | mode | mode <;> simp [mode]
    exact stopped.2 (step_error_of_not_running sound stopped.1 failed).1

/-- A program that writes V0 to V2 to the last places in memory, past which I cannot move. -/
def transferProgram : List UInt8 := [0xAF, 0xFD, 0xF2, 0x55]

theorem after_transferProgram (placed : m.Placed transferProgram 0) :
    (m.after [.step]).Placed transferProgram 2 ∧ (m.after [.step]).index = 0xFFD := by
  obtain ⟨next, step, placed, pc, stands⟩ := placed.step (i := .setIndex 0xFFD) 2 placed.fetch rfl
    nofun rfl (congrArg (· + 2) placed.pc) (by decide)
  have index : next.index = 0xFFD := by
    rw [stands]
    rfl
  simp only [after_cons, after_nil, perform, step]
  exact ⟨placed, index⟩

/-- The transfer fails at its end, and on no other ground. -/
theorem step_error_iff_transferProgram :
    let m := (fresh (.ofSeed 0)).after [.load transferProgram, .step]
    let fault := Fault.registerOverflow 0x1000 12
    m.step.2 = .error fault ∧ m.mode = .running ∧ m.InProgram ∧
      ∀ ground fault', m.Raises ground fault' ↔ ground = .transferAtEnd ∧ fault' = fault := by
  intro m fault
  have reached : m = ((fresh (.ofSeed 0)).loaded transferProgram).after [.step] :=
    after_load _ (by decide) _
  have start : ((fresh (.ofSeed 0)).loaded transferProgram).Placed transferProgram 0 :=
    placed_loaded _ (by decide) (by decide)
  obtain ⟨placed, index⟩ := after_transferProgram start
  rw [← reached] at placed index
  have fetch : m.fetch = .ok (.storeRegisters 2) := placed.fetch
  have last : m.index + (2 : UInt8).toNat = 0xFFF := by
    rw [index]
    rfl
  have raised : m.Raises .transferAtEnd fault :=
    ⟨2, .inl (meets_iff_fetch.2 fetch), last, rfl⟩
  have failed : m.step.2 = .error fault := (running_step_error_iff placed.sound placed.mode).2
    ⟨placed.inProgram, .inr ⟨_, fetch, .inr ⟨last, rfl⟩⟩⟩
  refine ⟨failed, placed.mode, placed.inProgram, fun ground fault' => ⟨fun other => ?_, ?_⟩⟩
  · rcases (step_error_iff (.ofSeed 0) _ fault).1.1 failed with ⟨idle, -⟩ | ⟨-, -, fails⟩
    · cases placed.mode.symm.trans idle
    · obtain ⟨only, -, alone⟩ := fails
      obtain ⟨rfl, -⟩ := alone .transferAtEnd fault raised
      exact alone ground fault' other
  · rintro ⟨rfl, rfl⟩
    exact raised

end Machine

end Chip8
