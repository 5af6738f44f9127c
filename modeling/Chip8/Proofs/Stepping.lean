import Chip8.Proofs.Pausing

/-!
# Stepping through a pause

A single step of a paused machine is the step that the machine makes once it is resumed, paused
again afterwards; only the clock, which a resume stops, goes on (`singleStep_eq`). So a paused
machine that is stepped through mirrors one under way that makes the same steps
(`Machine.Mirrors`): a single step beside a step keeps that, a call that reaches the keypad or the
frame of both keeps it, and so does any number of them (`Mirrors.history`).
-/

namespace Chip8
set_option autoImplicit false

/-- The call that is made of a paused machine in the place of a step. -/
def Call.singly : Call → Call
  | .step => .singleStep
  | other => other

theorem Call.singly_of_reaches {call : Call} (reaches : call.reaches) : call.singly = call := by
  cases call with
  | press | release | takeFrame => rfl
  | load | step | singleStep | tick | syncTimers | pause | resume => cases reaches

namespace Machine

variable {m w s : Machine} {call : Call} {clock : Clock}

/-- The machine with another clock. -/
def withClock (m : Machine) (clock : Clock) : Machine := { m with clock }

/-- The machine with another mode to go on in after a pause. -/
def withResumeTo (m : Machine) (resumeTo : Mode) : Machine := { m with resumeTo }

theorem withClock_of_eq (same : m.clock = clock) : m.withClock clock = m := by
  subst same
  rfl

theorem pause_of_not_active (still : ¬ m.mode.isActive) : m.pause = m := by
  simp [pause, still]

theorem pause_withClock (m : Machine) (clock : Clock) :
    (m.withClock clock).pause = m.pause.withClock clock := by
  by_cases active : m.mode.isActive <;> simp [pause, withClock, active]

/-- To pause takes no notice of the clock, and of the mode to go on in only if the machine is not
under way. -/
theorem exists_pause_eq (m : Machine) (clock clock' : Clock) (resumeTo : Mode) :
    ∃ resumeTo', ((m.withClock clock).withResumeTo resumeTo).pause.withClock clock' =
        (m.pause.withClock clock').withResumeTo resumeTo' ∧
      (m.mode.isActive → resumeTo' = m.mode) := by
  by_cases active : m.mode.isActive
  · exact ⟨m.mode, by simp [pause, withClock, withResumeTo, active], fun _ => rfl⟩
  · exact ⟨resumeTo, by simp [pause, withClock, withResumeTo, active],
      fun other => absurd other active⟩

theorem step_resumeTo (m : Machine) : m.step.1.resumeTo = m.resumeTo :=
  congrArg (fun done => done.1.resumeTo) (m.step_adjusted m.clock m.resumeTo)

theorem step_withClock (m : Machine) (clock : Clock) :
    (m.withClock clock).step = (m.step.1.withClock clock, m.step.2) := by
  refine (m.step_adjusted clock m.resumeTo).trans ?_
  rw [← m.step_resumeTo]
  rfl

/-- A single step of a paused machine is a resume, a step and a pause, but for the clock. -/
theorem singleStep_eq (paused : m.mode = .paused) :
    m.singleStep = (m.resume.step.1.pause.withClock m.clock, m.resume.step.2) := by
  let going := m.withMode m.resumeTo
  have resumed : m.resume = going.withClock .stopped := by
    simp [resume, paused, going, withMode, withClock]
  have kept : going.step.1.pause.clock = m.clock := (pause_clock _).trans going.step_clock
  calc m.singleStep
    _ = (going.step.1.pause, going.step.2) := singleStep_of_paused paused
    _ = (going.step.1.pause.withClock m.clock, going.step.2) := by rw [withClock_of_eq kept]
    _ = _ := by
      rw [resumed, step_withClock, pause_withClock]
      rfl

/-- A machine that is stepped through as the other makes its steps: the same machine, paused if
the other is under way, with a clock of its own. -/
structure Mirrors (clock : Clock) (w s : Machine) : Prop where
  sound : w.Sound
  awake : w.mode ≠ .paused
  same : ∃ resumeTo, s = (w.pause.withClock clock).withResumeTo resumeTo ∧
    (w.mode.isActive → resumeTo = w.mode)

theorem mirrors_of_active (sound : w.Sound) (active : w.mode.isActive) :
    Mirrors clock w (w.asleep clock) := by
  refine ⟨sound, ?_, w.mode, ?_, fun _ => rfl⟩
  · intro paused
    rw [paused] at active
    cases active
  · rw [pause_of_active active]
    rfl

/-- Beside a machine under way the other is asleep. -/
theorem Mirrors.asleep (mirrors : Mirrors clock w s) (active : w.mode.isActive) :
    s = w.asleep clock := by
  obtain ⟨resumeTo, rfl, goesOn⟩ := mirrors.same
  rw [pause_of_active active, goesOn active]
  rfl

/-- Beside a machine that is not under way the other is no more so. -/
theorem Mirrors.still (mirrors : Mirrors clock w s) (still : ¬ w.mode.isActive) :
    ∃ resumeTo, s = (w.withClock clock).withResumeTo resumeTo := by
  obtain ⟨resumeTo, rfl, -⟩ := mirrors.same
  rw [pause_of_not_active still]
  exact ⟨resumeTo, rfl⟩

theorem step_of_halted (halted : m.mode = .halted) : m.step = (m, .ok .halted) := by
  simp [step, halted]

/-- A machine that is neither under way nor paused stands. -/
theorem step_of_still (still : ¬ m.mode.isActive) (awake : m.mode ≠ .paused) : m.step.1 = m := by
  cases mode : m.mode with
  | idle | halted => simp [step, mode]
  | paused => exact absurd mode awake
  | running | awaitingKey =>
    rw [mode] at still
    exact absurd rfl still

/-- A single step mirrors a step. -/
theorem Mirrors.singleStep (mirrors : Mirrors clock w s) :
    s.singleStep.2 = w.step.2 ∧ Mirrors clock w.step.1 s.singleStep.1 := by
  have awake : w.step.1.mode ≠ .paused := (step_effect mirrors.sound).awake mirrors.awake
  -- A step looks neither at the clock nor at the mode to go on in, so both make the same step.
  by_cases active : w.mode.isActive
  · have woken : (w.asleep clock).resume = (w.withClock .stopped).withResumeTo w.mode :=
      resume_asleep w clock
    have stepped : ((w.withClock .stopped).withResumeTo w.mode).step =
      ((w.step.1.withClock .stopped).withResumeTo w.mode, w.step.2) := w.step_adjusted _ _
    rw [mirrors.asleep active, singleStep_eq rfl, woken, stepped]
    exact ⟨rfl, mirrors.sound.step, awake, w.step.1.exists_pause_eq .stopped clock w.mode⟩
  · obtain ⟨resumeTo, rfl⟩ := mirrors.still active
    have stepped : ((w.withClock clock).withResumeTo resumeTo).step =
      ((w.step.1.withClock clock).withResumeTo resumeTo, w.step.2) := w.step_adjusted _ _
    have stands := step_of_still active mirrors.awake
    rw [singleStep_of_not_paused (m := (w.withClock clock).withResumeTo _) mirrors.awake, stepped,
      stands]
    exact ⟨rfl, mirrors⟩

/-- What reaches the keypad or the frame of one reaches it of the other alike. -/
theorem Mirrors.reach (mirrors : Mirrors clock w s) (reaches : call.reaches) :
    (s.perform call).2 = (w.perform call).2 ∧
      Mirrors clock (w.perform call).1 (s.perform call).1 := by
  have sound := mirrors.sound.perform call
  obtain ⟨keypad, frame, answer, -, reached⟩ := w.exists_reached reaches
  have performed : w.perform call = ({ w with keypad, frame }, answer) := reached w
  rw [performed] at sound ⊢
  by_cases active : w.mode.isActive
  · rw [mirrors.asleep active]
    have performed : (w.asleep clock).perform call = _ := reached (w.asleep clock)
    rw [performed]
    exact ⟨rfl, mirrors_of_active sound active⟩
  · obtain ⟨resumeTo, rfl⟩ := mirrors.still active
    have performed : ((w.withClock clock).withResumeTo resumeTo).perform call = _ :=
      reached ((w.withClock clock).withResumeTo resumeTo)
    rw [performed]
    refine ⟨rfl, sound, mirrors.awake, resumeTo, ?_, fun other => absurd other active⟩
    rw [pause_of_not_active (m := { w with keypad, frame }) active]
    rfl

/-- Single steps mirror steps, however many there are and whatever reaches the keypad and the
frame in between. -/
theorem Mirrors.history {calls : List Call} (mirrors : Mirrors clock w s)
    (plain : ∀ call ∈ calls, call = .step ∨ call.reaches) :
    s.answers (calls.map Call.singly) = w.answers calls ∧
      Mirrors clock (w.after calls) (s.after (calls.map Call.singly)) := by
  induction calls generalizing w s with
  | nil => exact ⟨rfl, mirrors⟩
  | cons call rest ih =>
    obtain ⟨here, later⟩ := List.forall_mem_cons.1 plain
    have performed : (s.perform call.singly).2 = (w.perform call).2 ∧
        Mirrors clock (w.perform call).1 (s.perform call.singly).1 := by
      rcases here with rfl | reaches
      · obtain ⟨outcome, mirrors⟩ := mirrors.singleStep
        exact ⟨congrArg Answer.cycle outcome, mirrors⟩
      · rw [Call.singly_of_reaches reaches]
        exact mirrors.reach reaches
    obtain ⟨answers, mirrors⟩ := ih performed.2 later
    refine ⟨?_, mirrors⟩
    rw [List.map_cons, Machine.answers, Machine.answers, performed.1, answers]

/-- A paused machine mirrors the one that goes on in its place, whatever clock it has. -/
theorem mirrors_of_paused (sound : m.Sound) (paused : m.mode = .paused) (clock : Clock)
    {resumeTo : Mode} (active : resumeTo.isActive) :
    Mirrors m.clock ((m.resume.withClock clock).withResumeTo resumeTo) m := by
  have resumed : m.resume = { m with clock := .stopped, mode := m.resumeTo } := by
    simp [resume, paused]
  have goesOn := sound.resumeTo
  have going : ({ m with clock, mode := m.resumeTo, resumeTo } : Machine).Sound := by
    cases mode : m.resumeTo with
    | running | awaitingKey =>
      exact sound.underWay (by simp [paused]) (by simp [paused]) clock (by simp) (by simp) active
        (by simp [AwaitsKey, paused, mode])
    | idle | paused | halted =>
      rw [mode] at goesOn
      cases goesOn
  have mirrors : Mirrors m.clock _ _ := mirrors_of_active going goesOn
  have back : ({ m with clock, mode := m.resumeTo, resumeTo } : Machine).asleep m.clock = m := by
    simp only [asleep, ← paused]
  rw [back] at mirrors
  rw [resumed]
  exact mirrors

/-- To step through a pause is to resume, step and pause again: a single step is answered the
same and leaves the same machine, but for the clock, which it leaves alone and a resume stops.
So single steps, any number of them and with key events and copies of the frame in between, are
answered as the steps of the machine that goes on instead, be it resumed or never paused, and lead
to the same machine, except that it is paused where the other is under way, has its own clock, and
goes on in the mode of the other. -/
theorem singleStep_as_step (random : Random) (calls : List Call)
    (paused : ((fresh random).after calls).mode = .paused) :
    let m := (fresh random).after calls
    m.singleStep = (m.resume.step.1.pause.withClock m.clock, m.resume.step.2) ∧
      m.resume.step.1.pause.clock = .stopped ∧
      ∀ (clock : Clock) (resumeTo : Mode) (later : List Call), resumeTo.isActive →
        (∀ call ∈ later, call = .step ∨ call.reaches) →
        let going := (m.resume.withClock clock).withResumeTo resumeTo
        m.answers (later.map Call.singly) = going.answers later ∧
          ∃ resumeTo', m.after (later.map Call.singly) =
              ((going.after later).pause.withClock m.clock).withResumeTo resumeTo' ∧
            ((going.after later).mode.isActive → resumeTo' = (going.after later).mode) := by
  intro m
  have sound : m.Sound := sound_after random calls
  refine ⟨singleStep_eq paused, ?_, fun clock resumeTo later active plain => ?_⟩
  · have stopped : m.resume.clock = .stopped := by
      simp [resume, show m.mode = .paused from paused]
    rw [pause_clock, step_clock, stopped]
  · intro going
    have mirrors : Mirrors m.clock going m := mirrors_of_paused sound paused clock active
    obtain ⟨answers, mirrors⟩ := mirrors.history plain
    exact ⟨answers, mirrors.same⟩

/-- A machine that is held at the last instruction of its program picks up the key that is
pressed next, and comes to the end. -/
theorem Holds.answers_of_press {m₀ : Machine} {x key : UInt8} {size : Nat}
    (holds : m₀.Holds (.waiting x) m) (mode : m.mode = .awaitingKey) (known : key.toNat < 16)
    (loaded : m₀.programSize = some size) (last : m₀.pc + 2 = programStart + size) :
    m.answers [.press key, .takeFrame, .step, .step] =
      [.done (.ok ()), .frame m.takeFrame.1, .cycle (.ok (.keyReceived x key)),
        .cycle (.ok .halted)] := by
  obtain ⟨keypad, pressed⟩ : ∃ keypad, m.keypad.press key = .ok keypad := ⟨_, dif_pos known⟩
  have press : m.perform (.press key) = ({ m with keypad }, .done (.ok ())) := by
    simp [perform, Machine.press, pressed, attempt]
  have resolved := holds.press key
  rw [press, if_pos known] at resolved
  let seen : Machine := ({ m with keypad } : Machine).takeFrame.2
  have held : seen.mode = .awaitingKey := mode
  have looks : Call.step.looks seen.isPaused = true := by simp [Call.looks, isPaused, held]
  obtain ⟨received, receives⟩ := resolved.takeFrame.receive looks
  have outside : ¬ (seen.perform .step).1.InProgram := by
    obtain ⟨v, pc, work⟩ := receives.work
    have loaded' : (seen.perform .step).1.programSize = some size :=
      (congrArg Work.programSize work).trans loaded
    rw [inProgram_iff_of_size loaded', receives.pc, last]
    omega
  have halted : seen.step.1.mode = .halted := receives.halted outside
  have ends : seen.step.1.step.2 = .ok .halted := by rw [step_of_halted halted]
  calc m.answers [.press key, .takeFrame, .step, .step]
    _ = [.done (.ok ()), .frame m.takeFrame.1, (seen.perform .step).2,
          .cycle seen.step.1.step.2] := by
      rw [answers, press]
      rfl
    _ = _ := by rw [received, ends]

/-- A program of one wait for a key. -/
def waitProgram : List UInt8 := [0xF3, 0x0A]

theorem answers_waitProgram (start : m.Placed waitProgram 0) :
    m.answers [.step, .press 7, .takeFrame, .step, .step] =
      [.cycle (.ok (.executed (.awaitKey 3))), .done (.ok ()), .frame m.takeFrame.1,
        .cycle (.ok (.keyReceived 3 7)), .cycle (.ok .halted)] := by
  have step : m.step = _ := step_awaitKey (x := 3) start.mode start.inProgram start.fetch
  have executed : (m.perform .step).2 = .cycle (.ok (.executed (.awaitKey 3))) := by
    rw [perform, step]
  have holds := start.sound.holds executed
  rw [perform, step] at holds
  rw [answers, perform, step]
  exact congrArg _ (holds.answers_of_press rfl (by decide) start.size
    (congrArg (· + 2) start.pc))

/-- The program stepped through: the wait is armed, the key arrives and is picked up, and that
is the end. -/
theorem singleStep_as_step_pressed :
    let m := (fresh (.ofSeed 0)).after [.load waitProgram, .pause]
    let later : List Call := [.step, .press 7, .takeFrame, .step, .step]
    m.mode = .paused ∧ m.resume.resumeTo.isActive ∧
      (∀ call ∈ later, call = .step ∨ call.reaches) ∧
      m.answers [.singleStep, .press 7, .takeFrame, .singleStep, .singleStep] =
        m.resume.answers later ∧
      m.resume.answers later = [.cycle (.ok (.executed (.awaitKey 3))), .done (.ok ()),
        .frame (some { Frame.blank with stale := false }), .cycle (.ok (.keyReceived 3 7)),
        .cycle (.ok .halted)] := by
  intro m later
  have reached : m = ((fresh (.ofSeed 0)).loaded waitProgram).pause :=
    after_load _ (by decide) _
  have paused : m.mode = .paused := by
    rw [reached]
    rfl
  have active : m.resume.resumeTo.isActive := by
    rw [reached]
    rfl
  have plain : ∀ call ∈ later, call = .step ∨ call.reaches := by decide
  have same := (singleStep_as_step (.ofSeed 0) _ paused).2.2 m.resume.clock _ later active plain
  have start : ((fresh (.ofSeed 0)).loaded waitProgram).Placed waitProgram 0 :=
    placed_loaded _ (by decide) (by decide)
  have resumed : m.resume = (fresh (.ofSeed 0)).loaded waitProgram := by
    rw [reached]
    rfl
  refine ⟨paused, active, plain, same.1, ?_⟩
  rw [resumed]
  exact answers_waitProgram start

end Machine

end Chip8
