import Chip8.Proofs.Calls

/-!
# Waiting for a key

An instruction that waits for a key arms the keypad and holds the machine. `Machine.Holds`
is the invariant from then on, with the wait as far as it came: every call other than a load
keeps it (`Holds.poll`, `Holds.quiet`), until a key that arrived is picked up (`Holds.receive`).
Calls may come in any order, paused or not.
-/

namespace Chip8
set_option autoImplicit false

/-- The key that a call presses, if the keypad has it. -/
def Call.pressed : Call → Option UInt8
  | .press key => if key.toNat < 16 then some key else none
  | _ => none

/-- Whether a call replaces the program. -/
def Call.isLoad : Call → Bool
  | .load _ => true
  | _ => false

/-- Whether a call has a machine look for a key that arrived. A pause keeps steps and ticks
from it, but not single steps. -/
def Call.looks (paused : Bool) : Call → Bool
  | .singleStep => true
  | .step | .tick _ => !paused
  | _ => false

namespace Machine

variable {m m₀ : Machine} {call : Call} {wait : KeyWait} {x key : UInt8}

/-- A machine held at an instruction of `m₀` that waits for a key. -/
structure Holds (m₀ : Machine) (wait : KeyWait) (m : Machine) : Prop where
  sound : m.Sound
  work : m.work = m₀.work
  awaits : m.AwaitsKey
  wait : m.keypad.wait = wait

theorem pause_awaitsKey (awaits : m.AwaitsKey) : m.pause.AwaitsKey := by
  rcases awaits with waiting | ⟨paused, resumeTo⟩
  · simp [pause, AwaitsKey, waiting, Mode.isActive]
  · simp [pause, AwaitsKey, paused, resumeTo, Mode.isActive]

theorem resume_awaitsKey (awaits : m.AwaitsKey) : m.resume.AwaitsKey := by
  rcases awaits with waiting | ⟨paused, resumeTo⟩
  · simp [resume, AwaitsKey, waiting]
  · simp [resume, AwaitsKey, paused, resumeTo]

theorem pause_keypad (m : Machine) : m.pause.keypad = m.keypad := by
  unfold pause
  split <;> rfl

theorem resume_keypad (m : Machine) : m.resume.keypad = m.keypad := by
  unfold resume
  split <;> rfl

theorem Holds.pause (holds : m₀.Holds wait m) : m₀.Holds wait m.pause where
  sound := holds.sound.pause
  work := m.pause_work.trans holds.work
  awaits := pause_awaitsKey holds.awaits
  wait := by rw [pause_keypad, holds.wait]

theorem Holds.resume (holds : m₀.Holds wait m) : m₀.Holds wait m.resume where
  sound := holds.sound.resume
  work := m.resume_work.trans holds.work
  awaits := resume_awaitsKey holds.awaits
  wait := by rw [resume_keypad, holds.wait]

theorem Holds.syncTimers (holds : m₀.Holds wait m) (now : Int) :
    m₀.Holds wait (m.syncTimers now) where
  sound := holds.sound.syncTimers now
  work := (m.syncTimers_work now).trans holds.work
  awaits := by
    have same := m.syncTimers_sameControl now
    have awaits := holds.awaits
    unfold AwaitsKey at *
    rwa [same.mode, same.resumeTo]
  wait := by rw [syncTimers_keypad, holds.wait]

theorem Holds.takeFrame (holds : m₀.Holds wait m) : m₀.Holds wait m.takeFrame.2 where
  sound := holds.sound.takeFrame
  work := m.takeFrame_work.trans holds.work
  awaits := holds.awaits
  wait := holds.wait

theorem Holds.release (holds : m₀.Holds wait m) (key : UInt8) :
    m₀.Holds wait (m.perform (.release key)).1 := by
  refine ⟨holds.sound.perform _, ?_, ?_, ?_⟩
  all_goals
    simp only [perform, Machine.release, Keypad.release]
    split
  · exact holds.work
  · exact holds.work
  · exact holds.awaits
  · exact holds.awaits
  · exact holds.wait
  · exact holds.wait

/-- A press takes the wait one step further, if the keypad has the key. -/
theorem Holds.press (holds : m₀.Holds wait m) (key : UInt8) :
    m₀.Holds (if key.toNat < 16 then wait.press key else wait) (m.perform (.press key)).1 := by
  refine ⟨holds.sound.perform _, ?_, ?_, ?_⟩
  all_goals
    simp only [perform, Machine.press, Keypad.press]
    split
  · exact holds.work
  · exact holds.work
  · exact holds.awaits
  · exact holds.awaits
  · exact congrArg (KeyWait.press key) holds.wait
  · exact holds.wait

theorem isPaused_iff : m.isPaused = true ↔ m.mode = .paused := by
  simp [isPaused]

theorem step_of_paused (paused : m.mode = .paused) : m.step = (m, .ok .paused) := by
  simp [step, paused]

/-- A call that does not look for a key leaves the machine held, and a key that it presses
goes to the wait. -/
theorem Holds.quiet (holds : m₀.Holds wait m) (stays : call.isLoad = false)
    (quiet : call.looks m.isPaused = false) :
    m₀.Holds (call.pressed.elim wait fun key => wait.press key) (m.perform call).1 := by
  cases call with
  | load => cases stays
  | singleStep => cases quiet
  | step =>
    have paused : m.mode = .paused := by simpa [Call.looks, isPaused_iff] using quiet
    have stands : (m.perform .step).1 = m := congrArg Prod.fst (step_of_paused paused)
    rw [stands]
    exact holds
  | tick now =>
    have paused : m.mode = .paused := by simpa [Call.looks, isPaused_iff] using quiet
    have synced := (m.syncTimers_sameControl now).mode.trans paused
    have stands : (m.perform (.tick now)).1 = m.syncTimers now :=
      congrArg Prod.fst (step_of_paused synced)
    rw [stands]
    exact holds.syncTimers now
  | press key =>
    have pressed := holds.press key
    simp only [Call.pressed]
    split
    · rename_i exists_key
      rwa [if_pos exists_key] at pressed
    · rename_i unknown
      rwa [if_neg unknown] at pressed
  | syncTimers now => exact holds.syncTimers now
  | pause => exact holds.pause
  | resume => exact holds.resume
  | release key => exact holds.release key
  | takeFrame => exact holds.takeFrame

/-- A call that looks for a key makes a step, of the machine as it goes on if it is paused, and
pauses again if a pause was interrupted for it. -/
theorem exists_step_of_looks (sound : m.Sound) (looks : call.looks m.isPaused = true) :
    ∃ before : Machine, before.Sound ∧ before.work = m.work ∧ before.keypad = m.keypad ∧
      before.mode = (if m.isPaused then m.resumeTo else m.mode) ∧
      m.perform call =
        (if m.isPaused then before.step.1.pause else before.step.1, .cycle before.step.2) := by
  cases call with
  | singleStep =>
    by_cases paused : m.mode = .paused
    · refine ⟨m.withMode m.resumeTo, sound.unpause paused m.clock, rfl, rfl, ?_, ?_⟩
      · simp [isPaused, paused, withMode]
      · simp [perform, isPaused, paused, singleStep_of_paused paused]
    · refine ⟨m, sound, rfl, rfl, ?_, ?_⟩
      · simp [isPaused, paused]
      · simp [perform, isPaused, paused, singleStep_of_not_paused paused]
  | step =>
    have going : m.isPaused = false := by simpa [Call.looks] using looks
    exact ⟨m, sound, rfl, rfl, by simp [going], by simp [perform, going]⟩
  | tick now =>
    have going : m.isPaused = false := by simpa [Call.looks] using looks
    refine ⟨m.syncTimers now, sound.syncTimers now, m.syncTimers_work now,
      m.syncTimers_keypad now, ?_, by simp [perform, going, tick]⟩
    simp [going, (m.syncTimers_sameControl now).mode]
  | load | syncTimers | pause | resume | press | release | takeFrame => cases looks

/-- A call that looks for a key makes a step of a machine held in the same way, and pauses
again if a pause was interrupted for it. -/
theorem Holds.exists_step (holds : m₀.Holds wait m) (looks : call.looks m.isPaused = true) :
    ∃ before : Machine, m₀.Holds wait before ∧ before.mode = .awaitingKey ∧
      m.perform call =
        (if m.isPaused then before.step.1.pause else before.step.1, .cycle before.step.2) := by
  obtain ⟨before, sound, work, keypad, mode, performed⟩ := exists_step_of_looks holds.sound looks
  have awaits : before.mode = .awaitingKey := by
    rw [mode]
    rcases holds.awaits with waiting | ⟨paused, resumeTo⟩
    · simp [isPaused, waiting]
    · simp [isPaused, paused, resumeTo]
  have wait : before.keypad.wait = wait := by rw [keypad, holds.wait]
  exact ⟨before, ⟨sound, work.trans holds.work, .inl awaits, wait⟩, awaits, performed⟩

/-- As long as no key arrived, looking for one changes nothing. -/
theorem Holds.poll (holds : m₀.Holds (.waiting x) m) (looks : call.looks m.isPaused = true) :
    (m.perform call).2 = .cycle (.ok .awaitingKey) ∧
      m₀.Holds (.waiting x) (m.perform call).1 := by
  obtain ⟨before, holds, mode, performed⟩ := holds.exists_step looks
  have step : before.step = (before, .ok .awaitingKey) := by
    simp [Machine.step, mode, keyCycle, Keypad.take, holds.wait, guard]
  rw [performed, step]
  refine ⟨rfl, ?_⟩
  dsimp only
  split
  · exact holds.pause
  · exact holds

/-- What becomes of a machine, held at an instruction of `m₀`, that picks up a key. -/
structure Receives (m₀ : Machine) (x key : UInt8) (paused : Bool) (after : Machine) : Prop where
  register : after.registers.read x.toNat = .ok key
  others : ∀ r, r ≠ x.toNat → after.registers.read r = m₀.registers.read r
  pc : after.pc = m₀.pc + 2
  /-- Nothing changes but the V registers and the program counter. -/
  work : ∃ v pc, after.work = { m₀.work with v, pc }
  wait : after.keypad.wait = .idle
  halted : ¬ after.InProgram → after.mode = .halted
  running : after.InProgram → paused = false → after.mode = .running
  paused : after.InProgram → paused = true → after.mode = .paused ∧ after.resumeTo = .running

/-- A machine that was held and picks up a key without being paused. -/
theorem Holds.receives (holds : m₀.Holds wait m) {written : RegisterFile} {pc : Register 16}
    (write : m.registers.write x.toNat key = .ok written) (lands : pc.value = m.pc + 2) :
    m₀.Receives x key false
      { m with registers := { written with pc }, keypad := m.keypad.cancel,
               mode := .running }.settled := by
  have read (r : Nat) : { written with pc }.read r = _ := RegisterFile.read_of_write write r
  have v : m.registers.v = m₀.registers.v := congrArg Work.v holds.work
  rw [settled_of_running rfl]
  constructor
  · exact (read _).trans (if_pos rfl)
  · intro r other
    refine ((read r).trans (if_neg other)).trans ?_
    unfold RegisterFile.read
    rw [v]
  · have stood : m.pc = m₀.pc := congrArg (fun work => work.pc.value) holds.work
    exact lands.trans (by rw [stood])
  · obtain ⟨-, rfl⟩ := RegisterFile.write_eq_ok_iff.1 write
    rw [← holds.work]
    exact ⟨_, _, rfl⟩
  · rfl
  · exact fun outside => if_neg outside
  · exact fun inside _ => if_pos inside
  · nofun

/-- Pausing a machine that picked up a key, as a single step in a pause does. -/
theorem Receives.pause (receives : m₀.Receives x key false m) :
    m₀.Receives x key true m.pause := by
  by_cases inside : m.InProgram
  · have running := receives.running inside rfl
    have paused : m.pause = { m with mode := .paused, resumeTo := .running } := by
      simp [Machine.pause, running, Mode.isActive]
    rw [paused]
    exact { receives with
      halted := fun outside => absurd inside outside
      running := nofun
      paused := fun _ _ => ⟨rfl, rfl⟩ }
  · have halted := receives.halted inside
    have stands : m.pause = m := by simp [Machine.pause, halted, Mode.isActive]
    rw [stands]
    exact { receives with
      running := nofun
      paused := fun inside' => absurd inside' inside }

/-- A key that arrived is picked up by the first call that looks for it. -/
theorem Holds.receive (holds : m₀.Holds (.resolved x key) m)
    (looks : call.looks m.isPaused = true) :
    (m.perform call).2 = .cycle (.ok (.keyReceived x key)) ∧
      m₀.Receives x key m.isPaused (m.perform call).1 := by
  obtain ⟨before, holds, mode, performed⟩ := holds.exists_step looks
  have effect := step_effect holds.sound
  rw [performed]
  generalize before.step.1 = after, before.step.2 = outcome at effect ⊢
  cases effect with
  | awaiting _ pending => exact absurd holds.wait (pending x key)
  | received _ arrived write lands =>
    cases arrived.symm.trans holds.wait
    have receives := holds.receives write lands
    refine ⟨rfl, ?_⟩
    cases m.isPaused with
    | false => exact receives
    | true => exact receives.pause
  | idle other | halted other | paused other | left other | unfetched other | refused other
  | held other | executed other =>
    rw [mode] at other
    cases other

/-- A running machine that fetches a wait for a key executes it. -/
theorem step_awaitKey (mode : m.mode = .running) (inside : m.InProgram)
    (fetch : m.fetch = .ok (.awaitKey x)) :
    m.step = ({ m with keypad := m.keypad.arm x, mode := .awaitingKey },
      .ok (.executed (.awaitKey x))) := by
  have fits := isEncodable_of_fetch fetch
  simp only [step, mode, runCycle, inProgram_eq_ok_true_iff.2 inside,
    instructionCycle_of_fetch fetch, execute_awaitKey fits, conclude_hold]
  rfl

/-- The machine whose call executes a wait for a key is held from then on. -/
theorem Sound.holds (sound : m.Sound)
    (executed : (m.perform call).2 = .cycle (.ok (.executed (.awaitKey x)))) :
    m.Holds (.waiting x) (m.perform call).1 := by
  obtain ⟨before, ready, outcome, performed⟩ := exists_step sound executed
  have effect := step_effect ready.sound
  have stepped : m.Holds (.waiting x) before.step.1 := by
    rw [outcome] at effect
    have sound' := effect.sound ready.sound
    generalize before.step.1 = after at effect sound' ⊢
    cases effect with
    | held =>
      exact ⟨sound', ready.work, .inl rfl, rfl⟩
    | executed _ _ _ execute moves => exact absurd (execute_answers execute) moves
  rcases performed with performed | performed
  · rw [performed]
    exact stepped
  · rw [performed]
    exact stepped.pause

/-- Until a key is pressed the machine stays held, whatever else is called. -/
theorem Holds.waitingRun {calls : List Call} (holds : m₀.Holds (.waiting x) m)
    (quiet : ∀ call ∈ calls, call.isLoad = false ∧ call.pressed = none) :
    m₀.Holds (.waiting x) (m.after calls) := by
  induction calls generalizing m with
  | nil => exact holds
  | cons call rest ih =>
    obtain ⟨⟨stays, silent⟩, quiet⟩ := List.forall_mem_cons.1 quiet
    refine ih ?_ quiet
    by_cases looks : call.looks m.isPaused = true
    · exact (holds.poll looks).2
    · have still := holds.quiet stays (Bool.eq_false_iff.2 looks)
      rwa [silent] at still

/-- No call of a history is a load or looks for a key when it is made. -/
def Unlooked (m : Machine) : List Call → Prop
  | [] => True
  | call :: rest =>
    call.isLoad = false ∧ call.looks m.isPaused = false ∧ (m.perform call).1.Unlooked rest

/-- A key that arrived stays, whatever is pressed, until somebody looks for it. -/
theorem Holds.resolvedRun {calls : List Call} (holds : m₀.Holds (.resolved x key) m)
    (unlooked : m.Unlooked calls) : m₀.Holds (.resolved x key) (m.after calls) := by
  induction calls generalizing m with
  | nil => exact holds
  | cons call rest ih =>
    obtain ⟨stays, quiet, unlooked⟩ := unlooked
    refine ih ?_ unlooked
    have still := holds.quiet stays quiet
    cases pressed : call.pressed with
    | none => rwa [pressed] at still
    | some other => rwa [pressed] at still

/-- The keypad waits exactly as long as the machine is held. From the moment a call executes
a wait for a key, every call that looks for one is told to wait and a paused machine says
that it is paused, and the program does not move on, until the keypad takes a press; from
then on that key is kept, whatever is pressed or let go, for the first call that looks for
it. -/
theorem key_wait_protocol (random : Random) (calls : List Call) :
    let m := (fresh random).after calls
    (m.keypad.wait ≠ .idle ↔
      m.mode = .awaitingKey ∨ m.mode = .paused ∧ m.resumeTo = .awaitingKey) ∧
    ∀ (call : Call) (x : UInt8),
      (m.perform call).2 = .cycle (.ok (.executed (.awaitKey x))) →
      ∀ quiet : List Call, (∀ other ∈ quiet, other.isLoad = false ∧ other.pressed = none) →
      let held := (m.perform call).1.after quiet
      (held.work = m.work ∧
        (∀ next : Call, next.looks held.isPaused = true →
          (held.perform next).2 = .cycle (.ok .awaitingKey)) ∧
        (held.isPaused = true →
          held.step.2 = .ok .paused ∧ ∀ now, (held.tick now).2 = .ok .paused)) ∧
      ∀ key : UInt8, key.toNat < 16 → ∀ later : List Call,
      let pressed := (held.perform (.press key)).1
      pressed.Unlooked later →
      let ready := pressed.after later
      ready.work = m.work ∧
        ∀ next : Call, next.looks ready.isPaused = true →
          (ready.perform next).2 = .cycle (.ok (.keyReceived x key)) ∧
            m.Receives x key ready.isPaused (ready.perform next).1 := by
  intro m
  have sound : m.Sound := sound_after random calls
  refine ⟨sound.wait_iff, ?_⟩
  intro call x executed quiet silent held
  have holds : m.Holds (.waiting x) held := (sound.holds executed).waitingRun silent
  refine ⟨⟨holds.work, fun next looks => (holds.poll looks).1, ?_⟩, ?_⟩
  · intro paused
    have mode := isPaused_iff.1 paused
    refine ⟨by rw [step_of_paused mode], fun now => ?_⟩
    have synced := (held.syncTimers_sameControl now).mode.trans mode
    rw [tick, step_of_paused synced]
  · intro key exists_key later pressed unlooked ready
    have resolved : m.Holds (.resolved x key) pressed := by
      have press := holds.press key
      rwa [if_pos exists_key] at press
    have holds : m.Holds (.resolved x key) ready := resolved.resolvedRun unlooked
    exact ⟨holds.work, fun next looks => holds.receive looks⟩

/-- A program of one instruction, which waits for a key. -/
theorem step_of_waiting_program (m : Machine) :
    (m.loaded [0xF3, 0x0A]).step =
      ({ m.loaded [0xF3, 0x0A] with keypad := m.keypad.arm 3, mode := .awaitingKey },
        .ok (.executed (.awaitKey 3))) := by
  have start : (m.loaded [0xF3, 0x0A]).Placed [0xF3, 0x0A] 0 :=
    m.placed_loaded (by decide) (by decide)
  exact step_awaitKey start.mode start.inProgram start.fetch

theorem key_wait_protocol_pressed :
    let m := (fresh (.ofSeed 0)).after [.load [0xF3, 0x0A]]
    (m.perform .step).2 = .cycle (.ok (.executed (.awaitKey 3))) ∧
    let held := (m.perform .step).1.after [.pause, .release 0xB]
    let ready := (held.perform (.press 0xB)).1.after [.release 0xB, .press 0xC]
    (held.perform .singleStep).2 = .cycle (.ok .awaitingKey) ∧
      (ready.perform .singleStep).2 = .cycle (.ok (.keyReceived 3 0xB)) := by
  have executed : (((fresh (.ofSeed 0)).after [.load [0xF3, 0x0A]]).perform .step).2 =
      .cycle (.ok (.executed (.awaitKey 3))) := by
    rw [after_load _ (by decide), after_nil, perform, step_of_waiting_program]
  have protocol := (key_wait_protocol (.ofSeed 0) [.load [0xF3, 0x0A]]).2 .step 3 executed
    [.pause, .release 0xB] (by simp [Call.isLoad, Call.pressed])
  have pressed := protocol.2 0xB (by decide) [.release 0xB, .press 0xC]
    ⟨rfl, rfl, rfl, rfl, trivial⟩
  exact ⟨executed, protocol.1.2.1 .singleStep rfl, (pressed.2 .singleStep rfl).1⟩

end Machine

end Chip8
