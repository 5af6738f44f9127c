import Chip8.Proofs.Step

/-!
# Soundness

Every call keeps a sound machine sound, whatever its arguments are, so every machine that a
history of calls leads to is sound (`sound_after`). A step goes by the cases of its effect;
all other calls change little of what soundness is about (`Sound.of_same`).
-/

namespace Chip8
set_option autoImplicit false

/-- A press leaves it as it was whether somebody waits. -/
theorem KeyWait.press_eq_idle_iff {wait : KeyWait} {key : UInt8} :
    wait.press key = .idle ↔ wait = .idle := by
  cases wait <;> simp [press]

theorem KeyWait.Fits.press {wait : KeyWait} {key : UInt8} (fits : wait.Fits)
    (exists_key : key.toNat < 16) : (wait.press key).Fits := by
  cases wait with
  | idle => trivial
  | waiting register => exact ⟨fits, exists_key⟩
  | resolved register first => exact fits

namespace Machine

variable {m after : Machine}

/-- Soundness is about control, the call stack and the wait of the keypad. -/
theorem Sound.of_same (sound : m.Sound) (same : m.SameControl after)
    (stack : after.stack = m.stack) (fits : after.keypad.wait.Fits)
    (waits : after.keypad.wait = .idle ↔ m.keypad.wait = .idle) : after.Sound := by
  have inside := inProgram_congr same.pc same.programSize
  have pc : after.pc = m.pc := congrArg Register.value same.pc
  constructor
  · constructor
    · rw [same.programSize]
      exact sound.program
    · rw [stack]
      exact sound.calls
    · rw [stack]
      exact sound.returns
    · exact fits
  · rw [same.mode, same.programSize]
    exact sound.idle_iff
  · rw [same.resumeTo]
    exact sound.resumeTo
  · rw [same.fault, same.mode]
    exact sound.halted_of_fault
  · rw [same.fault, same.mode, inside]
    exact sound.fault_iff
  · rw [same.mode, same.programSize, inside, pc]
    exact sound.placed
  · unfold AwaitsKey
    rw [same.mode, same.resumeTo, ne_eq, waits]
    exact sound.wait_iff

theorem sound_fresh (random : Random) : (fresh random).Sound := by
  constructor
  · constructor
    · nofun
    · exact Nat.zero_le _
    · nofun
    · trivial
  · simp [fresh]
  · rfl
  · simp [fresh]
  · simp [fresh]
  · simp [fresh]
  · simp [fresh, AwaitsKey, Keypad.untouched]

/-- The machine into which a program was loaded. -/
def loaded (m : Machine) (program : List UInt8) : Machine :=
  { m with
    registers := startRegisters
    memory := .image program
    stack := .empty
    frame := m.frame.clear
    keypad := m.keypad.cancel
    clock := .stopped
    mode := .running
    resumeTo := .running
    programSize := some program.length
    fault := none }

/-- A load succeeds exactly if the program fits. -/
theorem load_eq_ok_iff {program : List UInt8} :
    m.load program = .ok after ↔
      program.length ≤ programLimit ∧ after = m.loaded program := by
  unfold load Memory.load
  split
  · rename_i fits
    simp [fits, loaded, eq_comm]
  · rename_i large
    simp [large]

/-- A program too large is refused. -/
theorem load_of_large (m : Machine) {program : List UInt8} (large : programLimit < program.length) :
    m.load program = .error (.programTooLarge program.length programLimit) := by
  unfold load Memory.load
  rw [if_neg (Nat.not_le.2 large)]
  rfl

theorem inProgram_loaded (m : Machine) {program : List UInt8} (proper : program ≠ []) :
    (m.loaded program).InProgram := by
  refine ⟨_, rfl, Nat.le_refl programStart, ?_⟩
  exact Nat.lt_add_of_pos_right (List.length_pos_iff.2 proper)

theorem sound_loaded (m : Machine) {program : List UInt8} (fits : program.length ≤ programLimit) :
    (m.loaded program).Sound := by
  constructor
  · constructor
    · rintro size ⟨⟩
      exact fits
    · exact Nat.zero_le _
    · nofun
    · trivial
  · simp [loaded]
  · rfl
  · simp [loaded]
  · simp [loaded]
  · intro _ _
    by_cases empty : program = []
    · subst empty
      exact .inr ⟨rfl, rfl⟩
    · exact .inl (m.inProgram_loaded empty)
  · simp [loaded, AwaitsKey, Keypad.cancel]

/-- A machine that was loaded and did not halt may change between running, being held and
being paused, as long as it stays held exactly if it was. -/
theorem Sound.underWay (sound : m.Sound) (loaded : m.mode ≠ .idle) (going : m.mode ≠ .halted)
    {mode resumeTo : Mode} (clock : Clock) (loaded' : mode ≠ .idle) (going' : mode ≠ .halted)
    (active : resumeTo.isActive)
    (awaits : mode = .awaitingKey ∨ mode = .paused ∧ resumeTo = .awaitingKey ↔ m.AwaitsKey) :
    { m with clock, mode, resumeTo }.Sound := by
  constructor
  · exact { sound.toWellFormed with }
  · exact iff_of_false loaded' (sound.loaded loaded)
  · exact active
  · exact fun fault => absurd (sound.fault_none going) fault
  · exact fun halted => absurd halted going'
  · exact fun _ _ => sound.placed loaded going
  · exact sound.wait_iff.trans awaits.symm

theorem Sound.pause (sound : m.Sound) : m.pause.Sound := by
  unfold Machine.pause
  split
  · rename_i active
    cases mode : m.mode with
    | running | awaitingKey =>
      exact sound.underWay (by simp [mode]) (by simp [mode]) m.clock (by simp) (by simp)
        rfl (by simp [AwaitsKey, mode])
    | idle | paused | halted =>
      rw [mode] at active
      cases active
  · exact sound

/-- A paused machine that goes on. -/
theorem Sound.unpause (sound : m.Sound) (paused : m.mode = .paused) (clock : Clock) :
    { m with clock, mode := m.resumeTo }.Sound := by
  have active := sound.resumeTo
  cases resumeTo : m.resumeTo with
  | running | awaitingKey =>
    exact sound.underWay (by simp [paused]) (by simp [paused]) clock (by simp) (by simp)
      rfl (by simp [AwaitsKey, paused, resumeTo])
  | idle | paused | halted =>
    rw [resumeTo] at active
    cases active

theorem Sound.resume (sound : m.Sound) : m.resume.Sound := by
  unfold Machine.resume
  split
  · rename_i paused
    exact sound.unpause paused _
  · exact sound

theorem syncTimers_sameControl (m : Machine) (now : Int) :
    m.SameControl (m.syncTimers now) := by
  unfold syncTimers
  split <;> exact ⟨rfl, rfl, rfl, rfl, rfl⟩

theorem syncTimers_stack (m : Machine) (now : Int) : (m.syncTimers now).stack = m.stack := by
  unfold syncTimers
  split <;> rfl

theorem syncTimers_keypad (m : Machine) (now : Int) : (m.syncTimers now).keypad = m.keypad := by
  unfold syncTimers
  split <;> rfl

theorem Sound.syncTimers (sound : m.Sound) (now : Int) : (m.syncTimers now).Sound := by
  have keypad := m.syncTimers_keypad now
  apply sound.of_same (m.syncTimers_sameControl now) (m.syncTimers_stack now)
  · rw [keypad]
    exact sound.wait
  · rw [keypad]

theorem Sound.press (sound : m.Sound) {key : UInt8} (h : m.press key = .ok after) :
    after.Sound := by
  obtain ⟨keypad, pressed, h⟩ := bind_eq_ok_iff.1 h
  cases h
  unfold Keypad.press at pressed
  split at pressed
  · rename_i exists_key
    cases pressed
    exact sound.of_same ⟨rfl, rfl, rfl, rfl, rfl⟩ rfl (sound.wait.press exists_key)
      KeyWait.press_eq_idle_iff
  · cases pressed

theorem Sound.release (sound : m.Sound) {key : UInt8} (h : m.release key = .ok after) :
    after.Sound := by
  obtain ⟨keypad, released, h⟩ := bind_eq_ok_iff.1 h
  cases h
  unfold Keypad.release at released
  split at released
  · cases released
    exact sound.of_same ⟨rfl, rfl, rfl, rfl, rfl⟩ rfl sound.wait Iff.rfl
  · cases released

theorem Sound.takeFrame (sound : m.Sound) : m.takeFrame.2.Sound :=
  sound.of_same ⟨rfl, rfl, rfl, rfl, rfl⟩ rfl sound.wait Iff.rfl

/-- What an instruction in memory leaves behind is well formed, whether it succeeds or fails. -/
theorem WellFormed.execute (formed : m.WellFormed) {i : Instruction} (fits : i.IsEncodable)
    (inside : m.pc < memorySize) : (m.execute i).1.WellFormed := by
  have size := (m.execute_sameControl i).programSize
  have wait : (m.execute i).1.keypad.wait.Fits := by
    rcases m.execute_keypad i with same | ⟨x, rfl⟩
    · rw [same]
      exact formed.wait
    · rw [execute_awaitKey fits]
      exact fits
  rcases m.execute_stack i with same | ⟨-, address, popped⟩ | ⟨-, pushed⟩
  · exact ⟨size ▸ formed.program, same ▸ formed.calls, same ▸ formed.returns, wait⟩
  · have returns := CallStack.returns_of_pop popped
    constructor
    · rw [size]
      exact formed.program
    · have room := formed.calls
      rw [CallStack.size, returns] at room
      exact Nat.le_of_succ_le room
    · intro other mem
      exact formed.returns other (returns ▸ List.mem_cons_of_mem _ mem)
    · exact wait
  · obtain ⟨room, returns⟩ := CallStack.returns_of_push pushed
    constructor
    · rw [size]
      exact formed.program
    · rw [CallStack.size, returns]
      exact room
    · intro address mem
      rw [returns] at mem
      rcases List.mem_cons.1 mem with rfl | older
      · omega
      · exact formed.returns address older
    · exact wait

/-- A running machine that nobody holds is sound once it is settled. -/
theorem sound_settled (formed : m.WellFormed) (mode : m.mode = .running)
    (loaded : m.programSize ≠ none) (resumeTo : m.resumeTo.isActive) (fault : m.fault = none)
    (wait : m.keypad.wait = .idle) : m.settled.Sound := by
  unfold settled
  split
  · rename_i inside
    constructor
    · exact formed
    · simp [mode, loaded]
    · exact resumeTo
    · exact fun failed => absurd fault failed
    · simp [mode]
    · exact fun _ _ => .inl inside
    · simp [wait, AwaitsKey, mode]
  · rename_i outside
    constructor
    · exact { formed with }
    · simp [withMode, loaded]
    · exact resumeTo
    · exact fun _ => rfl
    · exact fun _ => iff_of_false (not_not_intro fault) outside
    · exact fun _ halted => absurd rfl halted
    · simp [wait, AwaitsKey, withMode]

/-- A machine that fails inside its program is sound. -/
theorem sound_fail (formed : m.WellFormed) (inside : m.InProgram) (resumeTo : m.resumeTo.isActive)
    (wait : m.keypad.wait = .idle) (fault : Fault) : (m.fail fault).Sound := by
  obtain ⟨size, loaded, -⟩ := id inside
  constructor
  · exact { formed with }
  · simp only [fail, reduceCtorEq, false_iff]
    simp [Option.mem_def.1 loaded]
  · exact resumeTo
  · exact fun _ => rfl
  · exact fun _ => iff_of_true (Option.some_ne_none fault) inside
  · exact fun _ halted => absurd rfl halted
  · simp [wait, AwaitsKey, fail]

/-- A step keeps a machine sound. -/
theorem StepEffect.sound {outcome : Except Fault Cycle} (effect : m.StepEffect after outcome)
    (sound : m.Sound) : after.Sound := by
  have formed := sound.toWellFormed
  cases effect with
  | idle | halted | paused | awaiting => exact sound
  | received mode arrived write lands =>
    have waiting : m.mode ≠ .idle ∧ m.mode ≠ .halted := by simp [mode]
    refine sound_settled { formed with wait := ?_ } rfl (sound.loaded waiting.1) sound.resumeTo
      (sound.fault_none waiting.2) rfl
    trivial
  | left mode outside =>
    have running : m.mode ≠ .idle ∧ m.mode ≠ .halted := by simp [mode]
    have settled := sound_settled formed mode (sound.loaded running.1) sound.resumeTo
      (sound.fault_none running.2) (sound.wait_idle mode)
    rwa [Machine.settled, if_neg outside] at settled
  | unfetched mode inside fetch =>
    exact sound_fail formed inside sound.resumeTo (sound.wait_idle mode) _
  | @refused mode inside i fault fetch execute =>
    have fits := isEncodable_of_fetch fetch
    have same := m.execute_sameControl i
    have wait : (m.execute i).1.keypad.wait = .idle := by
      rcases m.execute_keypad i with keypad | ⟨x, rfl⟩
      · rw [keypad, sound.wait_idle mode]
      · -- A wait for a key that was decoded is never refused.
        rw [execute_awaitKey fits] at execute
        cases execute
    refine sound_fail (formed.execute fits (inside.pc_lt formed)) ?_ ?_ wait fault
    · exact (inProgram_congr same.pc same.programSize).2 inside
    · rw [same.resumeTo]
      exact sound.resumeTo
  | @held mode inside x fetch =>
    have noFault := sound.fault_none (by simp [mode])
    constructor
    · exact { formed with wait := isEncodable_of_fetch fetch }
    · exact iff_of_false (by simp) (sound.loaded (by simp [mode]))
    · exact sound.resumeTo
    · exact fun fault => absurd noFault fault
    · simp
    · exact fun _ _ => .inl inside
    · simp [AwaitsKey, Keypad.arm]
  | @executed mode inside i progress pc fetch execute moves lands =>
    have fits := isEncodable_of_fetch fetch
    have same := m.execute_sameControl i
    have running : m.mode ≠ .idle ∧ m.mode ≠ .halted := by simp [mode]
    have wait : (m.execute i).1.keypad.wait = .idle := by
      rcases m.execute_keypad i with keypad | ⟨x, rfl⟩
      · rw [keypad, sound.wait_idle mode]
      · exact absurd (execute_answers execute) moves
    apply sound_settled
    · exact { formed.execute fits (inside.pc_lt formed) with }
    · exact same.mode.trans mode
    · exact fun none => sound.loaded running.1 (same.programSize.symm.trans none)
    · exact same.resumeTo ▸ sound.resumeTo
    · exact same.fault.trans (sound.fault_none running.2)
    · exact wait

theorem Sound.step (sound : m.Sound) : m.step.1.Sound := (step_effect sound).sound sound

theorem Sound.singleStep (sound : m.Sound) : m.singleStep.1.Sound := by
  unfold Machine.singleStep
  split
  · rename_i paused
    exact (sound.unpause paused m.clock).step.pause
  · exact sound.step

theorem Sound.tick (sound : m.Sound) (now : Int) : (m.tick now).1.Sound :=
  (sound.syncTimers now).step

/-- Every call keeps a machine sound, carried out or refused. -/
theorem Sound.perform (sound : m.Sound) (call : Call) : (m.perform call).1.Sound := by
  cases call with
  | load program =>
    cases h : m.load program with
    | error fault => simpa [Machine.perform, attempt, h] using sound
    | ok after =>
      obtain ⟨fits, rfl⟩ := load_eq_ok_iff.1 h
      simpa [Machine.perform, attempt, h] using m.sound_loaded fits
  | press key =>
    cases h : m.press key with
    | error fault => simpa [Machine.perform, attempt, h] using sound
    | ok after => simpa [Machine.perform, attempt, h] using sound.press h
  | release key =>
    cases h : m.release key with
    | error fault => simpa [Machine.perform, attempt, h] using sound
    | ok after => simpa [Machine.perform, attempt, h] using sound.release h
  | step => exact sound.step
  | singleStep => exact sound.singleStep
  | tick now => exact sound.tick now
  | syncTimers now => exact sound.syncTimers now
  | pause => exact sound.pause
  | resume => exact sound.resume
  | takeFrame => exact sound.takeFrame

/-- A history of calls keeps a machine sound. -/
theorem Sound.history (sound : m.Sound) (calls : List Call) : (m.after calls).Sound := by
  induction calls generalizing m with
  | nil => exact sound
  | cons call rest ih => exact ih (sound.perform call)

/-- Every machine that a history of calls leads to is sound. -/
theorem sound_after (random : Random) (calls : List Call) : ((fresh random).after calls).Sound :=
  (sound_fresh random).history calls

end Machine

end Chip8
