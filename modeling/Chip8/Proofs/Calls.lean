import Chip8.Proofs.Soundness

/-!
# What a call can do

Stepping, single stepping and ticking all come down to one step of a machine that was made
ready for it (`exists_step`), so a fact about steps holds of all three. No other call touches
the program counter or records a fault, and only a load changes which program is loaded.
-/

namespace Chip8
set_option autoImplicit false

/-- Whether a call reaches the keypad or the frame, even of a paused machine. -/
def Call.reaches : Call → Bool
  | .press _ | .release _ | .takeFrame => true
  | _ => false

namespace Machine

variable {m after : Machine}

theorem settled_eq (m : Machine) :
    m.settled = m.withMode (if m.InProgram then m.mode else .halted) := by
  unfold settled
  split <;> rfl

/-- A running machine that is settled either runs on or is halted, and is the same otherwise. -/
theorem settled_of_running (running : m.mode = .running) :
    m.settled = m.withMode (if m.InProgram then .running else .halted) := by
  rw [settled_eq, running]

theorem settled_registers (m : Machine) : m.settled.registers = m.registers := by
  rw [settled_eq, withMode]

theorem settled_stack (m : Machine) : m.settled.stack = m.stack := by
  rw [settled_eq, withMode]

theorem settled_programSize (m : Machine) : m.settled.programSize = m.programSize := by
  rw [settled_eq, withMode]

theorem settled_fault (m : Machine) : m.settled.fault = m.fault := by
  rw [settled_eq, withMode]

/-- Settling at most halts. -/
theorem settled_mode_ne {mode : Mode} (other : m.mode ≠ mode) (going : mode ≠ .halted) :
    m.settled.mode ≠ mode := by
  unfold settled
  split
  · exact other
  · exact going.symm

theorem StepEffect.programSize {outcome : Except Fault Cycle}
    (effect : m.StepEffect after outcome) : after.programSize = m.programSize := by
  cases effect with
  | idle | halted | paused | awaiting | left | unfetched | held => rfl
  | received => exact settled_programSize _
  | refused => exact (m.execute_sameControl _).programSize
  | executed => exact (settled_programSize _).trans (m.execute_sameControl _).programSize

/-- An instruction is executed inside the program only. -/
theorem StepEffect.inProgram {i : Instruction}
    (effect : m.StepEffect after (.ok (.executed i))) : m.InProgram := by
  cases effect with
  | held _ inside | executed _ inside => exact inside

theorem singleStep_of_paused (paused : m.mode = .paused) :
    m.singleStep = ((m.withMode m.resumeTo).step.1.pause, (m.withMode m.resumeTo).step.2) := by
  simp [singleStep, paused]

theorem singleStep_of_not_paused (going : m.mode ≠ .paused) : m.singleStep = m.step := by
  simp [singleStep, going]

/-- How far a machine has come: where it stands in which program, with which data, and which
fault it recorded. Timers, keypad and mode are left out. -/
structure Work where
  pc : Register 16
  v : Vector UInt8 16
  index : Register 12
  memory : Memory
  stack : CallStack
  points : Vector Bool 2048
  random : Random
  programSize : Option Nat
  fault : Option Fault

/-- How far this machine has come. -/
def work (m : Machine) : Work :=
  { pc := m.registers.pc
    v := m.registers.v
    index := m.registers.index
    memory := m.memory
    stack := m.stack
    points := m.frame.points
    random := m.random
    programSize := m.programSize
    fault := m.fault }

theorem pc_of_work (same : after.work = m.work) : after.registers.pc = m.registers.pc :=
  congrArg Work.pc same

theorem programSize_of_work (same : after.work = m.work) : after.programSize = m.programSize :=
  congrArg Work.programSize same

theorem fault_of_work (same : after.work = m.work) : after.fault = m.fault :=
  congrArg Work.fault same

/-- Which instruction comes next depends on nothing else. -/
theorem fetch_of_work (same : after.work = m.work) : after.fetch = m.fetch := by
  have memory : after.memory = m.memory := congrArg Work.memory same
  have pc : after.pc = m.pc := congrArg Register.value (pc_of_work same)
  rw [fetch, memory, pc, fetch]

@[simp] theorem pause_work (m : Machine) : m.pause.work = m.work := by
  unfold pause
  split <;> rfl

@[simp] theorem resume_work (m : Machine) : m.resume.work = m.work := by
  unfold resume
  split <;> rfl

@[simp] theorem syncTimers_work (m : Machine) (now : Int) :
    (m.syncTimers now).work = m.work := by
  unfold syncTimers
  split <;> rfl

/-- Taking a copy of the frame leaves its points alone. -/
@[simp] theorem takeFrame_work (m : Machine) : m.takeFrame.2.work = m.work := by
  have points : m.frame.take.2.points = m.frame.points := by
    unfold Frame.take
    split <;> rfl
  simp [takeFrame, work, points]

/-- A call that reaches the keypad or the frame changes these alone, and what it makes of them and
answers goes by nothing else. -/
theorem exists_reached (m : Machine) {call : Call} (reaches : call.reaches) :
    ∃ keypad frame answer, frame.points = m.frame.points ∧ ∀ other : Machine,
      { other with keypad := m.keypad, frame := m.frame }.perform call =
        ({ other with keypad, frame }, answer) := by
  cases call with
  | press key =>
    simp only [perform, press]
    cases m.keypad.press key <;> exact ⟨_, m.frame, _, rfl, fun _ => rfl⟩
  | release key =>
    simp only [perform, release]
    cases m.keypad.release key <;> exact ⟨_, m.frame, _, rfl, fun _ => rfl⟩
  | takeFrame =>
    have points : m.frame.take.2.points = m.frame.points := congrArg Work.points m.takeFrame_work
    exact ⟨m.keypad, m.frame.take.2, .frame m.frame.take.1, points, fun _ => rfl⟩
  | load | step | singleStep | tick | syncTimers | pause | resume => cases reaches

theorem perform_of_reaches (m : Machine) {call : Call} (reaches : call.reaches) :
    ∃ keypad frame, frame.points = m.frame.points ∧
      (m.perform call).1 = { m with keypad, frame } := by
  obtain ⟨keypad, frame, _, points, reached⟩ := m.exists_reached reaches
  exact ⟨keypad, frame, points, congrArg Prod.fst (reached m)⟩

theorem work_of_reaches {call : Call} (reaches : call.reaches) :
    (m.perform call).1.work = m.work := by
  obtain ⟨keypad, frame, points, performed⟩ := m.perform_of_reaches reaches
  simp only [performed, work, points]

/-- The machine whose step a call makes has come as far as the machine that was called: it
may have been let go on from a pause, or brought up to time. -/
structure Readied (m before : Machine) : Prop where
  sound : before.Sound
  work : before.work = m.work
  idle_iff : before.mode = .idle ↔ m.mode = .idle

theorem Sound.readied (sound : m.Sound) : m.Readied m :=
  ⟨sound, rfl, Iff.rfl⟩

theorem Sound.readied_unpause (sound : m.Sound) (paused : m.mode = .paused) :
    m.Readied (m.withMode m.resumeTo) := by
  have unpaused : (m.withMode m.resumeTo).Sound := sound.unpause paused m.clock
  refine ⟨unpaused, rfl, ?_⟩
  rw [unpaused.idle_iff, sound.idle_iff]
  rfl

theorem Sound.readied_syncTimers (sound : m.Sound) (now : Int) :
    m.Readied (m.syncTimers now) := by
  refine ⟨sound.syncTimers now, m.syncTimers_work now, ?_⟩
  rw [(m.syncTimers_sameControl now).mode]

/-- A change that may be refused keeps what both endings keep. -/
theorem attempt_of {change : Except Fault Machine} {P : Machine → Prop} (old : P m)
    (new : ∀ after, change = .ok after → P after) : P (m.attempt change).1 := by
  cases change with
  | error fault => exact old
  | ok after => exact new after rfl

/-- A call that is answered with a cycle makes one step, of a machine that has come as far, and at
most pauses afterwards. -/
theorem exists_before (m : Machine) {call : Call} {outcome : Except Fault Cycle}
    (h : (m.perform call).2 = .cycle outcome) :
    ∃ before : Machine, before.work = m.work ∧ (m.Sound → m.Readied before) ∧
      before.step.2 = outcome ∧
      ((m.perform call).1 = before.step.1 ∨ (m.perform call).1 = before.step.1.pause) := by
  cases call with
  | step =>
    cases h
    exact ⟨m, rfl, Sound.readied, rfl, .inl rfl⟩
  | singleStep =>
    cases h
    by_cases paused : m.mode = .paused
    · have single := singleStep_of_paused paused
      exact ⟨m.withMode m.resumeTo, rfl, fun sound => sound.readied_unpause paused, by rw [single],
        .inr (congrArg Prod.fst single)⟩
    · have single := singleStep_of_not_paused paused
      exact ⟨m, rfl, Sound.readied, by rw [single], .inl (congrArg Prod.fst single)⟩
  | tick now =>
    cases h
    exact ⟨m.syncTimers now, m.syncTimers_work now, fun sound => sound.readied_syncTimers now, rfl,
      .inl rfl⟩
  | load program =>
    cases loaded : m.load program <;> simp [perform, attempt, loaded] at h
  | press key =>
    cases pressed : m.press key <;> simp [perform, attempt, pressed] at h
  | release key =>
    cases released : m.release key <;> simp [perform, attempt, released] at h
  | syncTimers | pause | resume | takeFrame => cases h

theorem exists_step (sound : m.Sound) {call : Call} {outcome : Except Fault Cycle}
    (h : (m.perform call).2 = .cycle outcome) :
    ∃ before : Machine, m.Readied before ∧ before.step.2 = outcome ∧
      ((m.perform call).1 = before.step.1 ∨ (m.perform call).1 = before.step.1.pause) := by
  obtain ⟨before, -, readied, done⟩ := m.exists_before h
  exact ⟨before, readied sound, done⟩

/-- Whatever call executes an instruction, the program counter lay in the program. -/
theorem inProgram_of_executed (sound : m.Sound) {call : Call} {i : Instruction}
    (h : (m.perform call).2 = .cycle (.ok (.executed i))) : m.InProgram := by
  obtain ⟨before, ready, outcome, -⟩ := exists_step sound h
  have effect := step_effect ready.sound
  rw [outcome] at effect
  exact (inProgram_congr (pc_of_work ready.work) (programSize_of_work ready.work)).1
    effect.inProgram

/-- A call that makes no step and loads nothing does not bring the program on. -/
theorem perform_work {call : Call} (other : ∀ program, call ≠ .load program)
    (still : ∀ outcome, (m.perform call).2 ≠ .cycle outcome) :
    (m.perform call).1.work = m.work := by
  cases call with
  | load program => exact absurd rfl (other program)
  | step | singleStep | tick => exact absurd rfl (still _)
  | syncTimers now => exact m.syncTimers_work now
  | pause => exact m.pause_work
  | resume => exact m.resume_work
  | press | release | takeFrame => exact work_of_reaches rfl

/-- Only a load that succeeds changes which program is loaded. -/
theorem perform_programSize (sound : m.Sound) {call : Call}
    (other : ∀ program, call ≠ .load program) :
    (m.perform call).1.programSize = m.programSize := by
  by_cases steps : ∃ outcome, (m.perform call).2 = .cycle outcome
  · obtain ⟨outcome, steps⟩ := steps
    obtain ⟨before, ready, -, after⟩ := exists_step sound steps
    have stepped := (step_effect ready.sound).programSize.trans (programSize_of_work ready.work)
    rcases after with after | after
    · rw [after, stepped]
    · rw [after, programSize_of_work before.step.1.pause_work, stepped]
  · exact programSize_of_work (perform_work other fun outcome h => steps ⟨outcome, h⟩)

theorem StepEffect.fault_of_ok {cycle : Cycle} (effect : m.StepEffect after (.ok cycle)) :
    after.fault = m.fault := by
  cases effect with
  | halted | paused | awaiting | left | held => rfl
  | received => exact settled_fault _
  | executed => exact (settled_fault _).trans (m.execute_sameControl _).fault

theorem StepEffect.fault_of_error {fault : Fault} (effect : m.StepEffect after (.error fault))
    (loaded : m.mode ≠ .idle) : m.mode = .running ∧ after.fault = some fault := by
  cases effect with
  | idle mode => exact absurd mode loaded
  | unfetched mode | refused mode => exact ⟨mode, rfl⟩

/-- A call that does not answer a cycle with a fault keeps the fault of the machine. -/
theorem perform_fault_of_ne (sound : m.Sound) {call : Call}
    (other : ∀ program, call ≠ .load program)
    (fine : ∀ fault, (m.perform call).2 ≠ .cycle (.error fault)) :
    (m.perform call).1.fault = m.fault := by
  by_cases steps : ∃ outcome, (m.perform call).2 = .cycle outcome
  · obtain ⟨outcome, steps⟩ := steps
    obtain ⟨before, ready, answered, after⟩ := exists_step sound steps
    have effect := step_effect ready.sound
    rw [answered] at effect
    cases outcome with
    | error fault => exact absurd steps (fine fault)
    | ok cycle =>
      have stepped := effect.fault_of_ok.trans (fault_of_work ready.work)
      rcases after with after | after
      · rw [after, stepped]
      · rw [after, fault_of_work before.step.1.pause_work, stepped]
  · exact fault_of_work (perform_work other fun outcome h => steps ⟨outcome, h⟩)

/-- A fault that answers a cycle of a loaded machine is recorded, and it is the first. -/
theorem perform_fault_of_eq (sound : m.Sound) (loaded : m.mode ≠ .idle) {call : Call}
    {fault : Fault} (failed : (m.perform call).2 = .cycle (.error fault)) :
    m.fault = none ∧ (m.perform call).1.fault = some fault := by
  obtain ⟨before, ready, answered, after⟩ := exists_step sound failed
  have effect := step_effect ready.sound
  rw [answered] at effect
  obtain ⟨running, recorded⟩ := effect.fault_of_error (mt ready.idle_iff.1 loaded)
  have first : before.fault = none := ready.sound.fault_none (by simp [running])
  refine ⟨(fault_of_work ready.work).symm.trans first, ?_⟩
  rcases after with after | after
  · rw [after, recorded]
  · rw [after, fault_of_work before.step.1.pause_work, recorded]

/-- What a running machine answers when it comes to an instruction. -/
theorem step_answer_of_fetch {i : Instruction} (sound : m.Sound) (mode : m.mode = .running)
    (inside : m.InProgram) (fetch : m.fetch = .ok i) :
    m.step.2 = (m.execute i).2.map fun _ => .executed i := by
  have effect := step_effect sound
  generalize m.step.1 = after, m.step.2 = outcome at effect
  cases effect with
  | idle other | halted other | paused other | awaiting other | received other =>
    rw [mode] at other
    cases other
  | left _ outside => exact absurd inside outside
  | unfetched _ _ other => cases fetch.symm.trans other
  | refused _ _ other execute | executed _ _ other execute =>
    cases fetch.symm.trans other
    rw [execute]
    rfl
  | held _ _ other =>
    cases fetch.symm.trans other
    rw [execute_awaitKey (isEncodable_of_fetch fetch)]
    rfl

/-- A running machine that cannot fetch an instruction fails as it stands. -/
theorem step_of_unfetched {fault : Fault} (mode : m.mode = .running) (inside : m.InProgram)
    (fetch : m.fetch = .error fault) : m.step = (m.fail fault, .error fault) := by
  simp only [step, mode, runCycle, inProgram_eq_ok_true_iff.2 inside, instructionCycle, fetch]
  rfl

/-- A running machine that executes an instruction arrives where the answer leads. -/
theorem step_of_executed {i : Instruction} {after : Machine} {progress : Progress}
    (sound : m.Sound) (mode : m.mode = .running) (inside : m.InProgram) (fetch : m.fetch = .ok i)
    (execute : m.execute i = (after, .ok progress)) (moves : progress ≠ .hold) :
    ∃ pc : Register 16, pc.value = progress.destination m.pc ∧
      m.step = ((after.withPc pc).settled, .ok (.executed i)) := by
  have answered : (m.execute i).2 = .ok progress := by rw [execute]
  have lt := destination_lt sound.toWellFormed (isEncodable_of_fetch fetch)
    (inside.pc_lt sound.toWellFormed) answered
  have same := m.execute_sameControl i
  rw [execute] at same
  have pc : after.pc = m.pc := congrArg Register.value same.pc
  rw [← pc] at lt ⊢
  refine ⟨⟨_, lt⟩, rfl, ?_⟩
  simp only [step, mode, runCycle, inProgram_eq_ok_true_iff.2 inside,
    instructionCycle_of_fetch fetch, execute]
  rw [conclude_of_lt (same.mode.trans mode)
    (fun none => sound.loaded (by simp [mode]) (same.programSize.symm.trans none)) moves lt]
  rfl

/-- The instruction at an address of a loaded program that nothing was written to. -/
theorem fetch_of_image {program : List UInt8} {offset : Nat} (memory : m.memory = .image program)
    (pc : m.pc = programStart + offset) (inside : programStart + offset + 1 < memorySize) :
    m.fetch = Opcode.decode (.ofNat
      ((program.getD offset 0).toNat * 256 + (program.getD (offset + 1) 0).toNat)) := by
  have byte (place : Nat) (h : programStart + place < memorySize) :
      (Memory.image program).read (programStart + place) = .ok (program.getD place 0) := by
    rw [Memory.read_image program h, Memory.imageByte, if_pos (Nat.le_add_right ..),
      Nat.add_sub_cancel_left]
    simp
  rw [fetch, memory, pc, Memory.readWord, byte offset (by omega), ok_bind, Nat.add_assoc,
    byte (offset + 1) (by omega)]
  rfl

/-- The first instruction of a program that was just loaded is the one that its first two
bytes encode. -/
theorem fetch_loaded (m : Machine) (program : List UInt8) :
    (m.loaded program).fetch = Opcode.decode
      (.ofNat ((program.getD 0 0).toNat * 256 + (program.getD 1 0).toNat)) :=
  fetch_of_image rfl rfl (by decide)

theorem perform_load (m : Machine) {program : List UInt8} (fits : program.length ≤ programLimit) :
    m.perform (.load program) = (m.loaded program, .done (.ok ())) := by
  simp only [perform, load_eq_ok_iff.2 ⟨fits, rfl⟩, attempt]

/-- Calls that begin with a load go on from the loaded machine. -/
theorem after_load (m : Machine) {program : List UInt8} (fits : program.length ≤ programLimit)
    (calls : List Call) : m.after (.load program :: calls) = (m.loaded program).after calls := by
  rw [after_cons, perform_load m fits]

/-- A running machine before an instruction of its program, which nothing was written to. -/
structure Placed (m : Machine) (program : List UInt8) (offset : Nat) : Prop where
  sound : m.Sound
  mode : m.mode = .running
  size : m.programSize = some program.length
  memory : m.memory = .image program
  pc : m.pc = programStart + offset
  inside : offset + 1 < program.length

theorem placed_loaded (m : Machine) {program : List UInt8} (proper : 1 < program.length)
    (fits : program.length ≤ programLimit) : (m.loaded program).Placed program 0 :=
  ⟨m.sound_loaded fits, rfl, rfl, rfl, rfl, by omega⟩

theorem Placed.inProgram {program : List UInt8} {offset : Nat}
    (placed : m.Placed program offset) : m.InProgram := by
  have inside := placed.inside
  refine ⟨_, placed.size, ?_⟩
  rw [placed.pc]
  omega

/-- The instruction that the machine comes to. -/
theorem Placed.fetch {program : List UInt8} {offset : Nat} (placed : m.Placed program offset) :
    m.fetch = Opcode.decode (.ofNat
      ((program.getD offset 0).toNat * 256 + (program.getD (offset + 1) 0).toNat)) := by
  have fits := placed.sound.program _ placed.size
  have inside := placed.inside
  refine fetch_of_image placed.memory placed.pc ?_
  unfold programLimit programStart memorySize at *
  omega

theorem Placed.syncTimers {program : List UInt8} {offset : Nat} (placed : m.Placed program offset)
    (now : Int) : (m.syncTimers now).Placed program offset := by
  have same := m.syncTimers_sameControl now
  have memory : (m.syncTimers now).memory = m.memory :=
    congrArg Work.memory (m.syncTimers_work now)
  exact ⟨placed.sound.syncTimers now, same.mode.trans placed.mode,
    same.programSize.trans placed.size, memory.trans placed.memory,
    (congrArg Register.value same.pc).trans placed.pc, placed.inside⟩

/-- An instruction that leads to another place in the program and leaves memory alone. -/
theorem Placed.step {program : List UInt8} {offset : Nat} {i : Instruction}
    {after : Machine} {progress : Progress} (placed : m.Placed program offset) (target : Nat)
    (fetch : m.fetch = .ok i) (execute : m.execute i = (after, .ok progress))
    (moves : progress ≠ .hold) (memory : after.memory = m.memory)
    (lands : progress.destination m.pc = programStart + target)
    (inside : target + 1 < program.length) :
    ∃ next, m.step = (next, .ok (.executed i)) ∧ next.Placed program target ∧
      ∃ pc, next = after.withPc pc := by
  have same := m.execute_sameControl i
  rw [execute] at same
  obtain ⟨pc, stands, step⟩ :=
    step_of_executed placed.sound placed.mode placed.inProgram fetch execute moves
  have there : (after.withPc pc).InProgram := by
    refine ⟨_, same.programSize.trans placed.size, ?_⟩
    rw [show (after.withPc pc).pc = programStart + target from stands.trans lands]
    omega
  rw [settled, if_pos there] at step
  have sound := placed.sound.step
  rw [step] at sound
  refine ⟨_, step, ⟨sound, same.mode.trans placed.mode, same.programSize.trans placed.size,
    memory.trans placed.memory, stands.trans lands, inside⟩, pc, rfl⟩

end Machine

end Chip8
