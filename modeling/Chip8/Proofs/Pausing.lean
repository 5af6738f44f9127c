import Chip8.Proofs.KeyWait
import Chip8.Proofs.Noninterference
import Chip8.Proofs.Setting

/-!
# Pausing

A machine that is paused is the machine that was under way, asleep (`Machine.asleep`): calls that
reach the keypad or the frame reach it in its sleep as they would awake, and of all other calls,
short of a load, a single step and a resume, only the clock takes notice (`perform_asleep`). So
it wakes as if only the former had been made (`pause_transparent`), and as the clock stands still
then, the pause takes nothing off the timers.
-/

namespace Chip8
set_option autoImplicit false

/-- Whether a call leaves a pause as it is: it neither ends it nor steps through it. -/
def Call.rests : Call → Bool
  | .load _ | .singleStep | .resume => false
  | _ => true

theorem Call.not_isStep_of_reaches {call : Call} (reaches : call.reaches) : ¬ call.isStep := by
  cases call with
  | press | release | takeFrame => nofun
  | load | step | singleStep | tick | syncTimers | pause | resume => cases reaches

/-- Whether a call lets the timers catch up with the time. -/
def Call.syncs : Call → Bool
  | .tick _ | .syncTimers _ => true
  | _ => false

theorem RegisterFile.decay_zero (r : RegisterFile) : r.decay 0 = r := by
  simp [decay]

namespace Machine

/-- The calls of a history, each with what it is answered. -/
def dialogue (m : Machine) (calls : List Call) : List (Call × Answer) := calls.zip (m.answers calls)

theorem dialogue_cons (m : Machine) (call : Call) (calls : List Call) :
    m.dialogue (call :: calls) = (call, (m.perform call).2) :: (m.perform call).1.dialogue calls :=
  rfl

/-- The machine, paused as it is, with a clock that may have gone on. -/
def asleep (m : Machine) (clock : Clock) : Machine :=
  { m with mode := .paused, resumeTo := m.mode, clock }

variable {m after : Machine} {call : Call}

theorem pause_of_active (active : m.mode.isActive) : m.pause = m.asleep m.clock := by
  simp [pause, active, asleep]

theorem resume_asleep (m : Machine) (clock : Clock) :
    (m.asleep clock).resume = { m with clock := .stopped, resumeTo := m.mode } := rfl

/-- What reaches a machine awake reaches it asleep. -/
theorem perform_asleep_of_reaches (reaches : call.reaches) (clock : Clock) :
    (m.asleep clock).perform call = ((m.perform call).1.asleep clock, (m.perform call).2) := by
  obtain ⟨keypad, frame, answer, -, reached⟩ := m.exists_reached reaches
  have awake : m.perform call = ({ m with keypad, frame }, answer) := reached m
  rw [awake]
  exact reached (m.asleep clock)

/-- Of all else only the clock of a sleeping machine takes notice. -/
theorem perform_asleep (rests : call.rests) (quiet : ¬ call.reaches) (clock : Clock) :
    ∃ clock', ((m.asleep clock).perform call).1 = m.asleep clock' ∧
      (call.isStep → ((m.asleep clock).perform call).2 = .cycle (.ok .paused)) := by
  cases call with
  | step => exact ⟨clock, rfl, fun _ => rfl⟩
  | tick now => exact ⟨.rebase now, rfl, fun _ => rfl⟩
  | pause => exact ⟨clock, rfl, nofun⟩
  | syncTimers now => exact ⟨.rebase now, rfl, nofun⟩
  | press | release | takeFrame => exact absurd rfl quiet
  | load | singleStep | resume => cases rests

/-- Sleeping through a history. -/
theorem after_asleep {calls : List Call} (rests : ∀ call ∈ calls, call.rests) (clock : Clock) :
    ∃ clock', (m.asleep clock).after calls = (m.after (calls.filter Call.reaches)).asleep clock' ∧
      ((m.asleep clock).dialogue calls).filter (·.1.reaches) =
        m.dialogue (calls.filter Call.reaches) ∧
      ∀ said ∈ (m.asleep clock).dialogue calls, said.1.isStep →
        said.2 = .cycle (.ok .paused) := by
  induction calls generalizing m clock with
  | nil => exact ⟨clock, rfl, rfl, fun _ mem => absurd mem List.not_mem_nil⟩
  | cons call rest ih =>
    obtain ⟨here, later⟩ := List.forall_mem_cons.1 rests
    by_cases reaches : call.reaches
    · have performed := m.perform_asleep_of_reaches reaches clock
      obtain ⟨clock', slept, said, blocked⟩ := ih (m := (m.perform call).1) later clock
      have silent : ¬ call.isStep := Call.not_isStep_of_reaches reaches
      refine ⟨clock', ?_, ?_, ?_⟩
      · rw [after_cons, performed, slept, List.filter_cons_of_pos reaches, after_cons]
      · rw [dialogue_cons, performed, List.filter_cons_of_pos reaches, dialogue_cons]
        simp only [List.filter_cons, reaches, if_true, said]
      · rw [dialogue_cons, performed, List.forall_mem_cons]
        exact ⟨fun steps => absurd steps silent, blocked⟩
    · obtain ⟨between, performed, answered⟩ := m.perform_asleep here reaches clock
      obtain ⟨clock', slept, said, blocked⟩ := ih (m := m) later between
      refine ⟨clock', ?_, ?_, ?_⟩
      · rw [after_cons, performed, slept, List.filter_cons_of_neg reaches]
      · rw [dialogue_cons, performed, List.filter_cons_of_neg reaches]
        simp only [List.filter_cons, reaches, Bool.false_eq_true, if_false, said]
      · rw [dialogue_cons, performed, List.forall_mem_cons]
        exact ⟨answered, blocked⟩

theorem after_mode_of_reaches {calls : List Call} (reach : ∀ call ∈ calls, call.reaches) :
    (m.after calls).mode = m.mode := by
  induction calls generalizing m with
  | nil => rfl
  | cons call rest ih =>
    obtain ⟨here, later⟩ := List.forall_mem_cons.1 reach
    obtain ⟨keypad, frame, -, performed⟩ := m.perform_of_reaches here
    rw [after_cons, ih later, performed]

/-- A step of a machine that is not paused does not pause it. -/
theorem StepEffect.awake {outcome : Except Fault Cycle} (effect : m.StepEffect after outcome)
    (awake : m.mode ≠ .paused) : after.mode ≠ .paused := by
  cases effect with
  | idle | halted | paused | awaiting => exact awake
  | left | unfetched | refused | held => nofun
  | received => exact settled_mode_ne nofun nofun
  | @executed _ _ i =>
    have mode : (m.execute i).1.mode = m.mode := (m.execute_sameControl i).mode
    exact settled_mode_ne (fun paused => awake (mode.symm.trans paused)) nofun

/-- A call of a machine that is not paused takes no notice of the mode to go on in, which stays
as it is unless the call sets it. -/
theorem perform_resumeTo (sound : m.Sound) (awake : m.mode ≠ .paused) (resumeTo : Mode)
    (call : Call) : ∃ resumeTo', ({ m with resumeTo } : Machine).perform call =
        ({ (m.perform call).1 with resumeTo := resumeTo' }, (m.perform call).2) ∧
      ((m.perform call).1.mode = .paused → resumeTo' = (m.perform call).1.resumeTo) := by
  have step (m : Machine) : ({ m with resumeTo } : Machine).step =
      ({ m.step.1 with resumeTo }, m.step.2) := by
    have adjusted := m.step_adjusted m.clock resumeTo
    have clock : { m.step.1 with resumeTo } = { m.step.1 with clock := m.clock, resumeTo } := by
      rw [← m.step_clock]
    rw [clock]
    exact adjusted
  have sync (now : Int) : ({ m with resumeTo } : Machine).syncTimers now =
      { m.syncTimers now with resumeTo } := by
    unfold syncTimers
    split <;> rfl
  have stays : m.step.1.mode ≠ .paused := (step_effect sound).awake awake
  by_cases reaches : call.reaches
  · obtain ⟨keypad, frame, answer, -, reached⟩ := m.exists_reached reaches
    have performed : m.perform call = ({ m with keypad, frame }, answer) := reached m
    rw [performed]
    exact ⟨resumeTo, reached { m with resumeTo }, fun paused => absurd paused awake⟩
  cases call with
  | load program =>
    simp only [perform, load]
    cases Memory.load program with
    | error => exact ⟨resumeTo, rfl, fun paused => absurd paused awake⟩
    | ok => exact ⟨.running, rfl, fun _ => rfl⟩
  | step => exact ⟨resumeTo, by simp only [perform, step], fun paused => absurd paused stays⟩
  | singleStep =>
    have single : m.singleStep = m.step := singleStep_of_not_paused awake
    have single' : ({ m with resumeTo } : Machine).singleStep = _ := singleStep_of_not_paused awake
    refine ⟨resumeTo, by simp only [perform, single, single', step], fun paused => ?_⟩
    rw [perform, single] at paused
    exact absurd paused stays
  | tick now =>
    have awake' : (m.syncTimers now).mode ≠ .paused := (m.syncTimers_sameControl now).mode ▸ awake
    refine ⟨resumeTo, by simp only [perform, tick, sync, step], fun paused => ?_⟩
    exact absurd paused ((step_effect (sound.syncTimers now)).awake awake')
  | syncTimers now =>
    refine ⟨resumeTo, by simp only [perform, sync], fun paused => absurd paused ?_⟩
    exact (m.syncTimers_sameControl now).mode ▸ awake
  | pause =>
    by_cases active : m.mode.isActive
    · exact ⟨m.mode, by simp [perform, pause, active], fun _ => by simp [perform, pause, active]⟩
    · have stands (m : Machine) (idle : ¬ m.mode.isActive) : m.pause = m := by simp [pause, idle]
      refine ⟨resumeTo, ?_, fun paused => absurd paused ?_⟩
      · simp only [perform, stands m active, stands { m with resumeTo } active]
      · simpa only [perform, stands m active] using awake
  | resume =>
    refine ⟨resumeTo, by simp [perform, resume, awake], fun paused => absurd paused ?_⟩
    simp [perform, resume, awake]
  | press | release | takeFrame => exact absurd rfl reaches

/-- Nothing that is called later tells which mode a machine that is not paused has to go on in. -/
theorem history_resumeTo {calls : List Call} (sound : m.Sound) {resumeTo : Mode}
    (unread : m.mode = .paused → resumeTo = m.resumeTo) :
    ({ m with resumeTo } : Machine).answers calls = m.answers calls ∧
      ∃ resumeTo', ({ m with resumeTo } : Machine).after calls =
        { m.after calls with resumeTo := resumeTo' } := by
  induction calls generalizing m resumeTo with
  | nil => exact ⟨rfl, resumeTo, rfl⟩
  | cons call rest ih =>
    by_cases paused : m.mode = .paused
    · rw [unread paused]
      exact ⟨rfl, _, rfl⟩
    · obtain ⟨later, performed, unread⟩ := perform_resumeTo sound paused resumeTo call
      obtain ⟨answers', after⟩ := ih (sound.perform call) unread
      simp only [answers, after_cons, performed, answers']
      exact ⟨trivial, after⟩

/-- Without a baseline the clock only gets one. -/
theorem syncTimers_of_stopped (stopped : m.clock = .stopped) (now : Int) :
    m.syncTimers now = { m with clock := .rebase now } := by
  unfold syncTimers
  split
  · rw [stopped, Clock.sync_stopped]
    simp only [RegisterFile.decay_zero]
  · rfl

theorem pause_clock (m : Machine) : m.pause.clock = m.clock := by
  unfold pause
  split <;> rfl

/-- A clock without a baseline gets none until the timers are to catch up. -/
theorem perform_clock_stopped (stopped : m.clock = .stopped) (quiet : ¬ call.syncs) :
    (m.perform call).1.clock = .stopped := by
  by_cases reaches : call.reaches
  · obtain ⟨keypad, frame, -, performed⟩ := m.perform_of_reaches reaches
    rw [performed]
    exact stopped
  cases call with
  | tick | syncTimers => exact absurd rfl quiet
  | load program =>
    simp only [perform, load]
    cases Memory.load program with
    | error => exact stopped
    | ok => rfl
  | step => exact m.step_clock.trans stopped
  | singleStep =>
    simp only [perform, singleStep]
    split
    · exact (pause_clock _).trans ((step_clock _).trans stopped)
    · exact m.step_clock.trans stopped
  | pause => exact m.pause_clock.trans stopped
  | resume =>
    simp only [perform, resume]
    split
    · rfl
    · exact stopped
  | press | release | takeFrame => exact absurd rfl reaches

theorem after_clock_stopped {calls : List Call} (stopped : m.clock = .stopped)
    (quiet : ∀ call ∈ calls, ¬ call.syncs) : (m.after calls).clock = .stopped := by
  induction calls generalizing m with
  | nil => exact stopped
  | cons call rest ih =>
    obtain ⟨here, later⟩ := List.forall_mem_cons.1 quiet
    exact ih (perform_clock_stopped stopped here) later

/-- A pause leaves no trace. When it ends, the machine is the one that the presses, releases and
copies of the frame made in the meantime alone would have led to, with the same answers to them,
and all steps and ticks were answered with the pause. Only its clock counts from anew, so that
the first time the timers catch up they lose nothing, and the mode to go on in is another, which
no later call can tell. -/
theorem pause_transparent (random : Random) (calls between : List Call)
    (active : ((fresh random).after calls).mode.isActive)
    (rests : ∀ call ∈ between, call.rests) :
    let m := (fresh random).after calls
    let reaching := between.filter Call.reaches
    let resumed := (m.pause.after between).resume
    resumed = { m.after reaching with clock := .stopped, resumeTo := m.mode } ∧
      (m.pause.dialogue between).filter (·.1.reaches) = m.dialogue reaching ∧
      (∀ said ∈ m.pause.dialogue between, said.1.isStep → said.2 = .cycle (.ok .paused)) ∧
      (∀ resumeTo later,
        ({ resumed with resumeTo } : Machine).answers later = resumed.answers later ∧
          ∃ resumeTo', ({ resumed with resumeTo } : Machine).after later =
            { resumed.after later with resumeTo := resumeTo' }) ∧
      ∀ later : List Call, (∀ call ∈ later, ¬ call.syncs) → ∀ now,
        (resumed.after later).syncTimers now =
          { resumed.after later with clock := .rebase now } := by
  intro m reaching resumed
  obtain ⟨clock, slept, said, blocked⟩ := m.after_asleep rests m.clock
  have mode : (m.after reaching).mode = m.mode :=
    after_mode_of_reaches fun call mem => (List.mem_filter.1 mem).2
  have pauses : m.pause = m.asleep m.clock := pause_of_active active
  have woken : resumed = { m.after reaching with clock := .stopped, resumeTo := m.mode } :=
    calc resumed
      _ = ((m.asleep m.clock).after between).resume := by rw [← pauses]
      _ = ((m.after reaching).asleep clock).resume := by rw [slept]
      _ = { m.after reaching with clock := .stopped, resumeTo := (m.after reaching).mode } :=
        resume_asleep _ clock
      _ = _ := by rw [mode]
  rw [pauses]
  refine ⟨woken, said, blocked, fun resumeTo later => ?_, fun later quiet now => ?_⟩
  · have sound : resumed.Sound := ((sound_after random calls).pause.history between).resume
    refine history_resumeTo sound fun paused => ?_
    rw [woken] at paused
    rw [← mode, show (m.after reaching).mode = .paused from paused] at active
    cases active
  · refine syncTimers_of_stopped (after_clock_stopped ?_ quiet) now
    rw [woken]

theorem pause_transparent_pressed :
    let m := (fresh (.ofSeed 0)).after [.load [0xF3, 0x0A], .step]
    let between : List Call := [.step, .tick 5, .press 7, .pause, .takeFrame, .syncTimers 9]
    m.mode.isActive ∧ (∀ call ∈ between, call.rests) ∧
      (m.pause.after between).resume =
        { m.after [.press 7, .takeFrame] with clock := .stopped, resumeTo := m.mode } := by
  have active : ((fresh (.ofSeed 0)).after [.load [0xF3, 0x0A], .step]).mode.isActive := by
    rw [after_load _ (by decide), after_cons, after_nil, perform, step_of_waiting_program]
    rfl
  have rests : ∀ call ∈ [Call.step, .tick 5, .press 7, .pause, .takeFrame, .syncTimers 9],
    call.rests := by decide
  have transparent := (pause_transparent (.ofSeed 0) _ _ active rests).1
  have reaching : [Call.step, .tick 5, .press 7, .pause, .takeFrame, .syncTimers 9].filter
    Call.reaches = [.press 7, .takeFrame] := rfl
  rw [reaching] at transparent
  exact ⟨active, rests, transparent⟩

end Machine

end Chip8
