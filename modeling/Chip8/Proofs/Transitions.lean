import Mathlib.Data.List.Induction
import Chip8.Proofs.Loading
import Chip8.Proofs.Stepping

/-!
# From mode to mode

`Machine.Move` lists the ways in which a call can change the mode of a machine, each with what the
call is answered, and `perform_move` says that a sound machine knows no other. The rules for the
modes are read off it (`Move.legal`). Where a pause leads depends on the history: back to the mode
that it interrupted, or on to the one that the last single step ended in (`exists_pausedSince`). A
machine that halted stays as it is until a program is loaded (`after_halted`).
-/

namespace Chip8
set_option autoImplicit false

/-- Whether a call is answered with a cycle. -/
def Call.cycles : Call → Bool
  | .step | .singleStep | .tick _ => true
  | _ => false

/-- Whether a call loaded a program, as its answer tells. -/
def Call.Loads (call : Call) (answer : Answer) : Prop := call.isLoad ∧ answer = .done (.ok ())

theorem Call.not_loads_cycle (call : Call) (outcome : Except Fault Cycle) :
    ¬ call.Loads (.cycle outcome) :=
  fun loads => by cases loads.2

namespace Machine

variable {m after : Machine} {call : Call} {answer : Answer}

/-! ## One call -/

/-- The mode after a call, given what the call is answered and the machine that it leads to. -/
inductive Move (m : Machine) (call : Call) (after : Machine) : Answer → Mode → Prop where
  | stays (answer : Answer) (unloaded : ¬ call.Loads answer) : Move m call after answer m.mode
  | loads (load : call.isLoad) : Move m call after (.done (.ok ())) .running
  /-- An instruction waits for a key. -/
  | waits (mode : m.mode = .running) (cycles : call.cycles) (x : UInt8) :
      Move m call after (.cycle (.ok (.executed (.awaitKey x)))) .awaitingKey
  | fails (mode : m.mode = .running) (cycles : call.cycles) (fault : Fault) :
      Move m call after (.cycle (.error fault)) .halted
  /-- There is no instruction to execute. -/
  | finds (mode : m.mode = .running) (cycles : call.cycles) (outside : ¬ m.InProgram) :
      Move m call after (.cycle (.ok .halted)) .halted
  /-- An instruction leads out of the program. -/
  | leaves (mode : m.mode = .running) (cycles : call.cycles) (i : Instruction)
      (outside : ¬ after.InProgram) : Move m call after (.cycle (.ok (.executed i))) .halted
  | receives (mode : m.mode = .awaitingKey) (cycles : call.cycles) (register key : UInt8)
      {mode' : Mode} (goesOn : mode' = .running ∨ mode' = .halted ∧ ¬ after.InProgram) :
      Move m call after (.cycle (.ok (.keyReceived register key))) mode'
  | pauses (active : m.mode.isActive) (pause : call = .pause) :
      Move m call after (.done (.ok ())) .paused
  | resumes (paused : m.mode = .paused) (resume : call = .resume) :
      Move m call after (.done (.ok ())) m.resumeTo
  /-- A single step of a paused machine halts it. -/
  | halts (paused : m.mode = .paused) (single : call = .singleStep) (answer : Answer) :
      Move m call after answer .halted

theorem settled_mode_of_running (running : m.mode = .running) :
    m.settled.mode = .running ∨ m.settled.mode = .halted ∧ ¬ m.settled.InProgram := by
  rw [settled_of_running running]
  split
  · exact .inl rfl
  · rename_i outside
    exact .inr ⟨rfl, outside⟩

/-- The step that a call makes of a machine in the same mode. -/
theorem StepEffect.move {before : Machine} {outcome : Except Fault Cycle}
    (effect : before.StepEffect after outcome) (ready : m.Readied before)
    (same : before.mode = m.mode) (cycles : call.cycles) :
    Move m call after (.cycle outcome) after.mode := by
  cases effect with
  | idle | halted | paused | awaiting =>
    rw [same]
    exact .stays _ (call.not_loads_cycle _)
  | received mode => exact .receives (same ▸ mode) cycles _ _ (settled_mode_of_running rfl)
  | left mode outside =>
    have inside := inProgram_congr (pc_of_work ready.work) (programSize_of_work ready.work)
    exact .finds (same ▸ mode) cycles (mt inside.2 outside)
  | unfetched mode | refused mode => exact .fails (same ▸ mode) cycles _
  | held mode => exact .waits (same ▸ mode) cycles _
  | @executed mode _ i _ pc =>
    have running : ((before.execute i).1.withPc pc).mode = .running :=
      (before.execute_sameControl i).mode.trans mode
    rcases settled_mode_of_running running with stays | ⟨halts, outside⟩
    · rw [stays, ← mode, same]
      exact .stays _ (call.not_loads_cycle _)
    · rw [halts]
      exact .leaves (same ▸ mode) cycles i outside

theorem resume_mode (paused : m.mode = .paused) : m.resume.mode = m.resumeTo := by
  simp [resume, paused]

/-- A machine stepped through a pause is paused again, to go on in the mode that the step ended
in, or it is halted. -/
theorem singleStep_mode (sound : m.Sound) (paused : m.mode = .paused) :
    m.singleStep.1.mode = .paused ∧ m.singleStep.1.resumeTo = m.resume.step.1.mode ∨
      m.singleStep.1.mode = .halted := by
  have effect := step_effect sound.resume
  have active : m.resume.mode.isActive := resume_mode paused ▸ sound.resumeTo
  have awake : m.resume.step.1.mode ≠ .paused := by
    apply effect.awake
    intro asleep
    rw [asleep] at active
    cases active
  have loaded : m.resume.step.1.mode ≠ .idle := by
    rw [ne_eq, (effect.sound sound.resume).idle_iff, effect.programSize,
      programSize_of_work m.resume_work]
    exact sound.loaded (by simp [paused])
  rw [singleStep_eq paused]
  cases ended : m.resume.step.1.mode with
  | running | awaitingKey => exact .inl (by simp [pause, withClock, ended, Mode.isActive])
  | halted => exact .inr (by simp [pause, withClock, ended, Mode.isActive])
  | idle => exact absurd ended loaded
  | paused => exact absurd ended awake

/-- Every call of a sound machine makes one of the moves. -/
theorem perform_move (sound : m.Sound) (call : Call) :
    Move m call (m.perform call).1 (m.perform call).2 (m.perform call).1.mode := by
  by_cases reaches : call.reaches
  · obtain ⟨keypad, frame, -, performed⟩ := m.perform_of_reaches reaches
    rw [congrArg Machine.mode performed]
    refine .stays _ ?_
    intro loads
    cases call with
    | load => cases reaches
    | step | singleStep | tick | syncTimers | pause | resume | press | release | takeFrame =>
      cases loads.1
  cases call with
  | load program =>
    simp only [perform]
    cases loaded : m.load program with
    | error fault => exact .stays _ fun loads => by cases loads.2
    | ok after =>
      obtain ⟨-, rfl⟩ := load_eq_ok_iff.1 loaded
      exact .loads rfl
  | step => exact (step_effect sound).move sound.readied rfl rfl
  | tick now =>
    have ready := sound.readied_syncTimers now
    exact (step_effect ready.sound).move ready (m.syncTimers_sameControl now).mode rfl
  | singleStep =>
    by_cases paused : m.mode = .paused
    · rcases singleStep_mode sound paused with ⟨stays, -⟩ | halts
      · rw [perform, stays, ← paused]
        exact .stays _ (Call.not_loads_cycle _ _)
      · rw [perform, halts]
        exact .halts paused rfl _
    · rw [perform, singleStep_of_not_paused paused]
      exact (step_effect sound).move sound.readied rfl rfl
  | syncTimers now =>
    rw [perform, (m.syncTimers_sameControl now).mode]
    exact .stays _ fun loads => by cases loads.1
  | pause =>
    simp only [perform, pause]
    split
    · rename_i active
      exact .pauses active rfl
    · exact .stays _ fun loads => by cases loads.1
  | resume =>
    simp only [perform, resume]
    split
    · rename_i paused
      exact .resumes paused rfl
    · exact .stays _ fun loads => by cases loads.1
  | press | release | takeFrame => exact absurd rfl reaches

/-- The rules for a call that changes the mode of a machine. -/
structure Legal (m : Machine) (call : Call) (after : Machine) (answer : Answer) : Prop where
  /-- A load that is carried out leads to running from every mode. -/
  loads : call.Loads answer → after.mode = .running
  /-- No other call changes the mode of a machine that is idle or halted. -/
  stays : ¬ call.Loads answer → m.mode = .idle ∨ m.mode = .halted → after.mode = m.mode
  /-- No machine becomes idle. -/
  idle : after.mode = .idle → m.mode = .idle
  /-- A running machine comes to wait for a key by executing that instruction. -/
  waits : m.mode = .running → after.mode = .awaitingKey →
    call.cycles ∧ ∃ x, answer = .cycle (.ok (.executed (.awaitKey x)))
  /-- It halts over a fault, or because it stood outside its program or left it. -/
  halts : m.mode = .running → after.mode = .halted → call.cycles ∧
    ((∃ fault, answer = .cycle (.error fault)) ∨
      answer = .cycle (.ok .halted) ∧ ¬ m.InProgram ∨
      (∃ i, answer = .cycle (.ok (.executed i))) ∧ ¬ after.InProgram)
  /-- A machine that waits for a key goes on, or halts, by receiving one. -/
  receives : ¬ call.Loads answer → m.mode = .awaitingKey →
    after.mode = .running ∨ after.mode = .halted →
    call.cycles ∧ ∃ register key, answer = .cycle (.ok (.keyReceived register key))
  /-- Only a pause pauses a machine. -/
  pauses : m.mode.isActive → after.mode = .paused → call = .pause
  /-- A pause ends by a resume, or by a single step that halts. -/
  resumes : ¬ call.Loads answer → m.mode = .paused → after.mode ≠ .paused →
    call = .resume ∨ call = .singleStep ∧ after.mode = .halted

/-- The moves keep to the rules. -/
theorem Move.legal (sound : m.Sound) (move : Move m call after answer after.mode) :
    m.Legal call after answer := by
  have active := sound.resumeTo
  generalize reached : after.mode = mode at move
  constructor
  case loads =>
    intro loads
    cases move with
    | loads => exact reached
    | stays _ unloaded => exact absurd loads unloaded
    | waits | fails | finds | leaves | receives => cases loads.2
    | pauses _ call | resumes _ call | halts _ call =>
      subst call
      cases loads.1
  case stays =>
    intro unloaded still
    cases move with
    | stays => exact reached
    | loads load => exact absurd ⟨load, rfl⟩ unloaded
    | waits mode | fails mode | finds mode | leaves mode | receives mode | resumes mode
    | halts mode => simp [mode] at still
    | pauses active => rcases still with mode | mode <;> simp [mode, Mode.isActive] at active
  case idle =>
    intro idle
    rw [reached] at idle
    cases move with
    | stays => exact idle
    | loads | waits | fails | finds | leaves | pauses | halts => cases idle
    | receives _ _ _ _ goesOn => simp [idle] at goesOn
    | resumes => simp [idle, Mode.isActive] at active
  case waits =>
    intro running awaits
    rw [reached] at awaits
    cases move with
    | waits _ cycles x => exact ⟨cycles, x, rfl⟩
    | stays => simp [running] at awaits
    | loads | fails | finds | leaves | pauses | halts => cases awaits
    | receives mode | resumes mode => simp [running] at mode
  case halts =>
    intro running halts
    rw [reached] at halts
    cases move with
    | fails _ cycles fault => exact ⟨cycles, .inl ⟨fault, rfl⟩⟩
    | finds _ cycles outside => exact ⟨cycles, .inr (.inl ⟨rfl, outside⟩)⟩
    | leaves _ cycles i outside => exact ⟨cycles, .inr (.inr ⟨⟨i, rfl⟩, outside⟩)⟩
    | stays => simp [running] at halts
    | loads | waits | pauses => cases halts
    | receives mode | resumes mode | halts mode => simp [running] at mode
  case receives =>
    intro unloaded awaits goesOn
    rw [reached] at goesOn
    cases move with
    | receives _ cycles register key => exact ⟨cycles, register, key, rfl⟩
    | loads load => exact absurd ⟨load, rfl⟩ unloaded
    | stays => simp [awaits] at goesOn
    | pauses => simp at goesOn
    | waits mode | fails mode | finds mode | leaves mode | resumes mode | halts mode =>
      simp [awaits] at mode
  case pauses =>
    intro going paused
    rw [reached] at paused
    cases move with
    | pauses _ call => exact call
    | stays => simp [paused, Mode.isActive] at going
    | loads | waits | fails | finds | leaves | halts => cases paused
    | receives _ _ _ _ goesOn => simp [paused] at goesOn
    | resumes => simp [paused, Mode.isActive] at active
  case resumes =>
    intro unloaded paused ends
    rw [reached] at ends
    cases move with
    | resumes _ call => exact .inl call
    | halts _ call => exact .inr ⟨call, reached⟩
    | stays => exact absurd paused ends
    | loads load => exact absurd ⟨load, rfl⟩ unloaded
    | pauses => exact absurd rfl ends
    | waits mode | fails mode | finds mode | leaves mode | receives mode => simp [paused] at mode

theorem perform_legal (sound : m.Sound) (call : Call) :
    m.Legal call (m.perform call).1 (m.perform call).2 :=
  (perform_move sound call).legal sound

/-! ## Where a pause leads -/

/-- A pause that began after the calls `first` of a history and that the calls `between`, made
since, did not end. -/
structure PausedSince (m : Machine) (first between : List Call) : Prop where
  active : (m.after first).mode.isActive
  paused : ∀ early late, between = early ++ late →
    (m.after (first ++ .pause :: early)).mode = .paused

/-- The mode that a pause interrupted, or the one that its last single step ended in. -/
def Interrupted (m : Machine) (first between : List Call) (mode : Mode) : Prop :=
  .singleStep ∉ between ∧ mode = (m.after first).mode ∨
    ∃ early late, between = early ++ .singleStep :: late ∧ .singleStep ∉ late ∧
      mode = (m.after (first ++ .pause :: early)).resume.step.1.mode

/-- A call other than a single step leaves the mode alone in which a paused machine goes on. -/
theorem perform_resumeTo_of_paused (paused : m.mode = .paused) (other : call ≠ .singleStep)
    (still : (m.perform call).1.mode = .paused) : (m.perform call).1.resumeTo = m.resumeTo := by
  by_cases reaches : call.reaches
  · obtain ⟨keypad, frame, -, performed⟩ := m.perform_of_reaches reaches
    rw [performed]
  cases call with
  | load program =>
    simp only [perform] at still ⊢
    cases loaded : m.load program with
    | error fault => rfl
    | ok after =>
      obtain ⟨-, rfl⟩ := load_eq_ok_iff.1 loaded
      rw [loaded] at still
      cases still
  | step => rw [perform, step_of_paused paused]
  | tick now =>
    have same := m.syncTimers_sameControl now
    rw [perform, tick, step_of_paused (same.mode.trans paused), same.resumeTo]
  | syncTimers now => exact (m.syncTimers_sameControl now).resumeTo
  | pause => simp [perform, pause, paused, Mode.isActive]
  | resume => simp [perform, resume, paused]
  | singleStep => exact absurd rfl other
  | press | release | takeFrame => exact absurd rfl reaches

theorem pausedSince_pause {calls : List Call} (active : (m.after calls).mode.isActive) :
    m.PausedSince calls [] := by
  refine ⟨active, ?_⟩
  intro early late split
  obtain ⟨rfl, -⟩ := List.append_eq_nil_iff.1 split.symm
  rw [after_append, after_cons, after_nil, perform, pause_of_active active]
  rfl

/-- One more call that does not end the pause. -/
theorem PausedSince.concat {first between : List Call} (since : m.PausedSince first between)
    (still : (m.after (first ++ .pause :: (between ++ [call]))).mode = .paused) :
    m.PausedSince first (between ++ [call]) := by
  refine ⟨since.active, ?_⟩
  intro early late split
  rcases late.eq_nil_or_concat with rfl | ⟨rest, last, rfl⟩
  · rw [List.append_nil] at split
    rw [← split]
    exact still
  · rw [List.concat_eq_append, ← List.append_assoc] at split
    exact since.paused early rest (List.append_inj_left' split rfl)

/-- One more call moves the mode in which the pause ends only if it is a single step. -/
theorem Interrupted.concat {first between : List Call} {mode : Mode}
    (interrupted : m.Interrupted first between mode) (other : call ≠ .singleStep) :
    m.Interrupted first (between ++ [call]) mode := by
  rcases interrupted with ⟨none, mode⟩ | ⟨early, late, rfl, none, mode⟩
  · exact .inl ⟨by simp [none, other.symm], mode⟩
  · exact .inr ⟨early, late ++ [call], by simp, by simp [none, other.symm], mode⟩

/-- A machine that is under way after a history, if the next call pauses it. -/
theorem isActive_of_pauses (sound : m.Sound) (awake : m.mode ≠ .paused)
    (paused : (m.perform call).1.mode = .paused) : m.mode.isActive := by
  have legal := perform_legal sound call
  cases mode : m.mode with
  | running | awaitingKey => rfl
  | paused => exact absurd mode awake
  | idle | halted =>
    by_cases loads : call.Loads (m.perform call).2
    · cases (legal.loads loads).symm.trans paused
    · have stays := legal.stays loads (by simp [mode])
      cases paused.symm.trans (stays.trans mode)

/-- Every pause began with the machine under way and ends in the mode that it interrupted, or in
the one that the last single step ended in. -/
theorem exists_pausedSince (sound : m.Sound) (awake : m.mode ≠ .paused) {calls : List Call}
    (paused : (m.after calls).mode = .paused) :
    ∃ first between, calls = first ++ .pause :: between ∧ m.PausedSince first between ∧
      m.Interrupted first between (m.after calls).resume.mode := by
  -- The last call is looked at first: what it is depends on whether the pause began before it.
  induction calls using List.reverseRecOn with
  | nil => exact absurd paused awake
  | append_singleton calls call ih =>
    have here : m.after (calls ++ [call]) = ((m.after calls).perform call).1 := by
      rw [after_append, after_cons, after_nil]
    have sound' : (m.after calls).Sound := sound.history calls
    rw [here] at paused ⊢
    rw [resume_mode paused]
    by_cases before : (m.after calls).mode = .paused
    · obtain ⟨first, between, rfl, since, interrupted⟩ := ih before
      rw [resume_mode before] at interrupted
      refine ⟨first, between ++ [call], by simp, since.concat ?_, ?_⟩
      · rw [← List.cons_append, ← List.append_assoc, here]
        exact paused
      · by_cases single : call = .singleStep
        · subst single
          rcases singleStep_mode sound' before with ⟨-, ended⟩ | halted
          · exact .inr ⟨between, [], rfl, List.not_mem_nil, ended⟩
          · cases paused.symm.trans halted
        · rw [perform_resumeTo_of_paused before single paused]
          exact interrupted.concat single
    · have active := isActive_of_pauses sound' before paused
      obtain rfl := (perform_legal sound' call).pauses active paused
      refine ⟨calls, [], rfl, pausedSince_pause active, .inl ⟨List.not_mem_nil, ?_⟩⟩
      rw [perform, pause_of_active active]
      rfl

/-! ## A machine that halted -/

/-- The machine with other keys held, another key pressed last, a frame of which a copy was or was
not taken since it changed, and another clock. -/
def stirred (m : Machine) (held : Vector Bool 16) (last : Option UInt8) (stale : Bool)
    (clock : Clock) : Machine :=
  { m with
    keypad := { m.keypad with held, last }
    frame := { m.frame with stale }
    clock }

/-- All that a call short of a load can do to a halted machine. -/
theorem perform_halted (halted : m.mode = .halted) (wait : m.keypad.wait = .idle)
    (unloaded : ¬ call.Loads (m.perform call).2) :
    (∃ held last stale clock, (m.perform call).1 = m.stirred held last stale clock) ∧
      (call.cycles → (m.perform call).2 = .cycle (.ok .halted)) := by
  have stands : m = m.stirred m.keypad.held m.keypad.last m.frame.stale m.clock := rfl
  have silent {P : Prop} (other : call.cycles = false) (cycles : call.cycles) : P :=
    absurd (other.symm.trans cycles) Bool.false_ne_true
  have rebased (now : Int) : m.syncTimers now = { m with clock := .rebase now } := by
    simp [syncTimers, halted, Mode.isActive]
  cases call with
  | load program =>
    refine ⟨?_, silent rfl⟩
    simp only [perform] at unloaded ⊢
    cases loaded : m.load program with
    | error fault => exact ⟨_, _, _, _, stands⟩
    | ok after =>
      rw [loaded] at unloaded
      exact absurd ⟨rfl, rfl⟩ unloaded
  | step =>
    rw [perform, step_of_halted halted]
    exact ⟨⟨_, _, _, _, stands⟩, fun _ => rfl⟩
  | singleStep =>
    have step : m.singleStep = (m, .ok .halted) := by simp [singleStep, step, halted]
    rw [perform, step]
    exact ⟨⟨_, _, _, _, stands⟩, fun _ => rfl⟩
  | tick now =>
    have step : m.tick now = ({ m with clock := .rebase now }, .ok .halted) := by
      simp [tick, rebased, step, halted]
    rw [perform, step]
    exact ⟨⟨_, _, _, _, rfl⟩, fun _ => rfl⟩
  | syncTimers now =>
    rw [perform, rebased]
    exact ⟨⟨_, _, _, _, rfl⟩, silent rfl⟩
  | pause =>
    have pause : m.pause = m := by simp [pause, halted, Mode.isActive]
    rw [perform, pause]
    exact ⟨⟨_, _, _, _, stands⟩, silent rfl⟩
  | resume =>
    have resume : m.resume = m := by simp [resume, halted]
    rw [perform, resume]
    exact ⟨⟨_, _, _, _, stands⟩, silent rfl⟩
  | press key =>
    refine ⟨?_, silent rfl⟩
    have unheeded : m.keypad.wait.press key = m.keypad.wait := by
      rw [wait]
      rfl
    simp only [perform, press, Keypad.press, unheeded]
    split
    · exact ⟨_, _, _, _, rfl⟩
    · exact ⟨_, _, _, _, stands⟩
  | release key =>
    refine ⟨?_, silent rfl⟩
    simp only [perform, release, Keypad.release]
    split
    · exact ⟨_, _, _, _, rfl⟩
    · exact ⟨_, _, _, _, stands⟩
  | takeFrame =>
    refine ⟨?_, silent rfl⟩
    simp only [perform, takeFrame, Frame.take]
    split
    · exact ⟨_, _, _, _, rfl⟩
    · exact ⟨_, _, _, _, stands⟩

/-- Until a program is loaded, a halted machine stands still and answers so. -/
theorem after_halted (halted : m.mode = .halted) (wait : m.keypad.wait = .idle)
    {calls : List Call} (unloaded : ∀ said ∈ m.dialogue calls, ¬ said.1.Loads said.2) :
    (∃ held last stale clock, m.after calls = m.stirred held last stale clock) ∧
      ∀ said ∈ m.dialogue calls, said.1.cycles → said.2 = .cycle (.ok .halted) := by
  induction calls generalizing m with
  | nil => exact ⟨⟨_, _, _, _, rfl⟩, fun _ mem => absurd mem List.not_mem_nil⟩
  | cons call rest ih =>
    rw [dialogue_cons] at unloaded ⊢
    obtain ⟨here, later⟩ := List.forall_mem_cons.1 unloaded
    obtain ⟨⟨held, last, stale, clock, performed⟩, answered⟩ := perform_halted halted wait here
    rw [after_cons]
    rw [performed] at later ⊢
    obtain ⟨⟨held', last', stale', clock', after⟩, answers⟩ :=
      ih (m := m.stirred held last stale clock) halted wait later
    exact ⟨⟨held', last', stale', clock', after⟩, List.forall_mem_cons.2 ⟨answered, answers⟩⟩

/-- A machine that calls lead to changes its mode by the rules alone. If it is paused, the pause
began while it was under way, and a resume leads back to the mode that it was in then or, if it
was stepped through since, on to the one that its last single step ended in. If it halted, then
whatever is called, as long as no program is loaded, nothing changes but the keys held, the key
pressed last, whether a copy of the frame was taken and the clock, and all steps are answered
alike. -/
theorem legal_transitions (random : Random) (calls : List Call) :
    let m := (fresh random).after calls
    (∀ call, m.Legal call (m.perform call).1 (m.perform call).2) ∧
    (m.mode = .paused → ∃ first between, calls = first ++ .pause :: between ∧
      (fresh random).PausedSince first between ∧
      (fresh random).Interrupted first between m.resume.mode) ∧
    (m.mode = .halted → ∀ later, (∀ said ∈ m.dialogue later, ¬ said.1.Loads said.2) →
      (∃ held last stale clock, m.after later = m.stirred held last stale clock) ∧
      ∀ said ∈ m.dialogue later, said.1.cycles → said.2 = .cycle (.ok .halted)) := by
  intro m
  have sound : m.Sound := sound_after random calls
  refine ⟨fun call => perform_legal sound call, ?_, ?_⟩
  · apply exists_pausedSince (sound_fresh random)
    nofun
  · intro halted later unloaded
    have wait : m.keypad.wait = .idle :=
      sound.wait_idle_of_ne (by simp [halted]) (by simp [halted])
    exact after_halted halted wait unloaded

/-- A machine that is paused while it waits for a key, and one that halted over a fault and is
called in all sorts of ways. -/
theorem legal_transitions_halted :
    let waiting := (fresh (.ofSeed 0)).after [.load [0xF3, 0x0A], .step, .pause]
    let m := (fresh (.ofSeed 0)).after [.load [0x50, 0x01], .step]
    let later : List Call := [.resume, .press 0xB, .pause, .tick 20000000, .singleStep]
    (waiting.mode = .paused ∧
      ∃ first between, [.load [0xF3, 0x0A], .step, .pause] = first ++ .pause :: between ∧
        (fresh (.ofSeed 0)).PausedSince first between ∧
        (fresh (.ofSeed 0)).Interrupted first between waiting.resume.mode) ∧
      m.mode = .halted ∧ (∀ said ∈ m.dialogue later, ¬ said.1.Loads said.2) ∧
      (∃ held last stale clock, m.after later = m.stirred held last stale clock) ∧
      ∀ said ∈ m.dialogue later, said.1.cycles → said.2 = .cycle (.ok .halted) := by
  have paused : ((fresh (.ofSeed 0)).after [.load [0xF3, 0x0A], .step, .pause]).mode = .paused := by
    rw [after_waiting_program]
  have since := (legal_transitions (.ofSeed 0) [.load [0xF3, 0x0A], .step, .pause]).2.1 paused
  have halted : ((fresh (.ofSeed 0)).after [.load [0x50, 0x01], .step]).mode = .halted := by
    rw [after_illegal_program, fail]
  have unloaded (m : Machine) : ∀ said ∈ m.dialogue
      [.resume, .press 0xB, .pause, .tick 20000000, .singleStep], ¬ said.1.Loads said.2 := by
    intro said mem loads
    have none : ∀ call ∈ [Call.resume, .press 0xB, .pause, .tick 20000000, .singleStep],
      ¬ call.isLoad := by decide
    exact none _ (List.of_mem_zip mem).1 loads.1
  have stands := (legal_transitions (.ofSeed 0) [.load [0x50, 0x01], .step]).2.2 halted _
    (unloaded _)
  exact ⟨⟨paused, since⟩, halted, unloaded _, stands⟩

end Machine

end Chip8
