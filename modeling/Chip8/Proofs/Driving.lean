import Chip8.Proofs.Join
import Chip8.Proofs.Pausing
import Chip8.Proofs.Randomness

/-!
# A worker carries out the plain loop

The plain loop makes steps until one finds the machine halted or fails (`Machine.loop`). A machine
that is driven by a worker, and called in between, is alike to the one in the loop in all that a
program can see as long as it senses neither time nor keys, except that it may be paused
(`Machine.Alike`). Both make the same step (`Alike.step`), a pass of the worker either makes it or
waits for the pause to end, and so a worker that ends leaves the machine where the loop does
(`ended_as_loop`).
-/

namespace Chip8
set_option autoImplicit false

/-- How a loop of steps ended. -/
structure Ending where
  /-- What the steps did, all but the last. -/
  cycles : List Cycle
  machine : Machine
  /-- The fault of the last step, unless it found the machine halted. -/
  outcome : Except Fault Unit

namespace Machine

/-- Makes steps until one finds the machine halted or fails, if that happens in time. -/
def loop (m : Machine) : Nat → Option Ending
  | 0 => none
  | count + 1 =>
    match m.step with
    | (after, .error fault) => some { cycles := [], machine := after, outcome := .error fault }
    | (after, .ok .halted) => some { cycles := [], machine := after, outcome := .ok () }
    | (after, .ok cycle) =>
      (after.loop count).map fun ending => { ending with cycles := cycle :: ending.cycles }

variable {m p after : Machine}

/-- How a loop that ends begins. -/
inductive LoopEffect (m : Machine) (count : Nat) : Ending → Prop where
  | halted (step : m.step.2 = .ok .halted) : LoopEffect m count ⟨[], m.step.1, .ok ()⟩
  | failed {fault : Fault} (step : m.step.2 = .error fault) :
      LoopEffect m count ⟨[], m.step.1, .error fault⟩
  | goesOn {cycle : Cycle} {cycles : List Cycle} {final : Machine} {outcome : Except Fault Unit}
      (step : m.step.2 = .ok cycle) (going : cycle ≠ .halted)
      (loop : m.step.1.loop count = some ⟨cycles, final, outcome⟩) :
      LoopEffect m count ⟨cycle :: cycles, final, outcome⟩

theorem loop_effect {count : Nat} {ending : Ending} (h : m.loop (count + 1) = some ending) :
    m.LoopEffect count ending := by
  rw [loop] at h
  rcases step : m.step with ⟨after, fault | cycle⟩
  · rw [step] at h
    cases h
    have failed : m.LoopEffect count _ := .failed (congrArg Prod.snd step)
    rwa [step] at failed
  · rw [step] at h
    cases cycle with
    | halted =>
      cases h
      have halted : m.LoopEffect count _ := .halted (congrArg Prod.snd step)
      rwa [step] at halted
    | executed | keyReceived | awaitingKey | paused =>
      obtain ⟨later, loop, rfl⟩ := Option.map_eq_some_iff.1 h
      exact .goesOn (congrArg Prod.snd step) (by simp) (by rw [step, loop])

/-- What holds of the instructions that a loop executes holds of the first. -/
theorem of_loop {count : Nat} {ending : Ending} {P : Instruction → Prop}
    (h : m.loop (count + 1) = some ending) (all : ∀ i, .executed i ∈ ending.cycles → P i)
    (i : Instruction) (executed : m.step.2 = .ok (.executed i)) : P i := by
  cases loop_effect h with
  | halted step | failed step => cases executed.symm.trans step
  | goesOn step =>
    cases executed.symm.trans step
    exact all i List.mem_cons_self

/-- A step that moves nothing on is made forever. -/
theorem loop_of_stuck {cycle : Cycle} (step : m.step = (m, .ok cycle)) (going : cycle ≠ .halted)
    (count : Nat) : m.loop count = none := by
  induction count with
  | zero => rfl
  | succ count ih =>
    rw [loop, step]
    cases cycle with
    | halted => exact absurd rfl going
    | executed | keyReceived | awaitingKey | paused => simp [ih]

/-- A machine `m` that is driven stands where the machine `p` of a plain loop stands, but may be
paused there. -/
structure Alike (m p : Machine) : Prop where
  sound : m.Sound
  soundLoop : p.Sound
  work : m.work = p.work
  mode : m.mode = p.mode ∨ m.mode = .paused ∧ m.resumeTo = p.mode ∧ p.mode.isActive
  awake : p.mode ≠ .paused
  /-- If a key is waited for, it arrived. -/
  arrived : p.mode = .awaitingKey → ∃ register key,
    p.keypad.wait = .resolved register key ∧ m.keypad.wait = .resolved register key

/-- Two machines that have come as far are told apart by the outside and the setting. -/
theorem eq_under_of_work (work : m.work = p.work) (mode : m.mode = p.mode) :
    m = (p.under m.outside).within m.setting := by
  obtain ⟨⟨v, index, pc, delay, sound⟩, memory, stack, ⟨points, stale⟩, keypad, random, clock,
    mode', resumeTo, programSize, fault⟩ := m
  obtain ⟨⟨v', index', pc', delay', sound'⟩, memory', stack', ⟨points', stale'⟩, keypad', random',
    clock', mode'', resumeTo', programSize', fault'⟩ := p
  cases work
  cases mode
  rfl

/-- Machines that are alike and not paused make the same step, if the instruction that it executes
senses nothing. -/
theorem Alike.step (alike : m.Alike p) (going : m.mode ≠ .paused)
    (deaf : ∀ i, p.step.2 = .ok (.executed i) → ¬ i.Senses) :
    m.step.2 = p.step.2 ∧ m.step.1.Alike p.step.1 := by
  have mode : m.mode = p.mode := alike.mode.resolve_right fun paused => going paused.1
  have random : m.random = p.random := congrArg Work.random alike.work
  obtain ⟨o, under⟩ := step_under (o := m.outside) alike.soundLoop
    (fun waits => by
      obtain ⟨register, key, wait, wait'⟩ := alike.arrived waits
      exact wait'.trans wait.symm)
    fun i executed listens => ⟨deaf i executed, random⟩
  obtain ⟨mark, within⟩ := (p.under m.outside).step_within
  -- What tells `m` from `p` is what no step looks at and what this instruction does not sense.
  have step : m.step = ((p.step.1.under o).within (m.setting.marked mark), p.step.2) :=
    calc m.step
      _ = ((p.under m.outside).within m.setting).step :=
        congrArg Machine.step (eq_under_of_work alike.work mode)
      _ = ((p.under m.outside).step.1.within (m.setting.marked mark), (p.under m.outside).step.2) :=
        within m.setting
      _ = ((p.step.1.under o).within (m.setting.marked mark), p.step.2) := by rw [under]
  have outcome : m.step.2 = p.step.2 := by rw [step]
  have effect := step_effect alike.sound
  have effectLoop := step_effect alike.soundLoop
  have random' : m.step.1.random = p.step.1.random := by
    rw [m.step_draws.random, p.step_draws.random, random, outcome]
  have same : m.step.1.work = { p.step.1.work with random := m.step.1.random } := by rw [step]; rfl
  have moved : p.step.1.mode ≠ .awaitingKey := effectLoop.going (fun waits => by
    obtain ⟨register, key, wait, -⟩ := alike.arrived waits
    exact ⟨register, key, wait⟩) deaf
  refine ⟨outcome, alike.sound.step, alike.soundLoop.step, ?_, .inl ?_, ?_, ?_⟩
  · rw [same, random']
    rfl
  · rw [step]
    rfl
  · exact effectLoop.awake alike.awake
  · exact fun waits => absurd waits moved

/-- Calls that change neither how far the machine has come nor its mode keep it alike, as long as
they do not take away a key that arrived. -/
theorem Alike.of_same (alike : m.Alike p) (sound : after.Sound) (work : after.work = m.work)
    (mode : after.mode = m.mode) (resumeTo : after.resumeTo = m.resumeTo)
    (wait : ∀ register key, m.keypad.wait = .resolved register key →
      after.keypad.wait = .resolved register key) : after.Alike p where
  sound := sound
  soundLoop := alike.soundLoop
  work := work.trans alike.work
  mode := by
    rw [mode, resumeTo]
    exact alike.mode
  awake := alike.awake
  arrived waits := by
    obtain ⟨register, key, arrived, arrived'⟩ := alike.arrived waits
    exact ⟨register, key, arrived, wait register key arrived'⟩

theorem Alike.syncTimers (alike : m.Alike p) (now : Int) : (m.syncTimers now).Alike p := by
  have same := m.syncTimers_sameControl now
  refine alike.of_same (alike.sound.syncTimers now) (m.syncTimers_work now) same.mode same.resumeTo
    fun register key arrived => ?_
  rwa [syncTimers_keypad]

theorem Alike.pause (alike : m.Alike p) : m.pause.Alike p := by
  by_cases active : m.mode.isActive
  · have mode : m.mode = p.mode := alike.mode.resolve_right fun paused => by
      rw [paused.1] at active
      cases active
    refine ⟨alike.sound.pause, alike.soundLoop, m.pause_work.trans alike.work, .inr ?_,
      alike.awake, ?_⟩
    · rw [← mode]
      simp [Machine.pause, active]
    · rw [pause_keypad]
      exact alike.arrived
  · have stands : m.pause = m := by simp [Machine.pause, active]
    rwa [stands]

theorem Alike.resume (alike : m.Alike p) : m.resume.Alike p := by
  by_cases paused : m.mode = .paused
  · have resumeTo : m.resumeTo = p.mode := by
      rcases alike.mode with mode | ⟨-, resumeTo, -⟩
      · exact absurd (mode.symm.trans paused) alike.awake
      · exact resumeTo
    refine ⟨alike.sound.resume, alike.soundLoop, m.resume_work.trans alike.work, .inl ?_,
      alike.awake, ?_⟩
    · simp [Machine.resume, paused, resumeTo]
    · rw [resume_keypad]
      exact alike.arrived
  · have stands : m.resume = m := by simp [Machine.resume, paused]
    rwa [stands]

end Machine

/-- Whether a call is one of those that are made of a machine while a worker drives it. -/
def Call.isRemote : Call → Bool
  | .pause | .resume | .press _ | .release _ | .takeFrame => true
  | _ => false

namespace Machine

variable {m p : Machine} {call : Call}

theorem Alike.remote (alike : m.Alike p) (remote : call.isRemote) :
    (m.perform call).1.Alike p := by
  have sound := alike.sound.perform call
  cases call with
  | pause => exact alike.pause
  | resume => exact alike.resume
  | takeFrame =>
    exact alike.of_same sound m.takeFrame_work rfl rfl fun _ _ arrived => arrived
  | press key =>
    simp only [perform, press, Keypad.press] at sound ⊢
    split
    · rename_i known
      rw [dif_pos known] at sound
      refine alike.of_same sound rfl rfl rfl fun register other arrived => ?_
      show m.keypad.wait.press key = _
      rw [arrived]
      rfl
    · exact alike
  | release key =>
    simp only [perform, release, Keypad.release] at sound ⊢
    split
    · rename_i known
      rw [dif_pos known] at sound
      exact alike.of_same sound rfl rfl rfl fun _ _ arrived => arrived
    · exact alike
  | load | step | singleStep | tick | syncTimers => cases remote

/-- A machine that no step moves on any more. -/
def IsOver (m : Machine) : Prop := m.mode = .halted ∨ m.mode = .idle

/-- The step that ends a loop leaves the machine halted, or found nothing loaded. -/
theorem StepEffect.over {m after : Machine} {outcome : Except Fault Cycle}
    (effect : m.StepEffect after outcome)
    (last : outcome = .ok .halted ∨ ∃ fault, outcome = .error fault) : after.IsOver := by
  cases effect with
  | idle mode => exact .inr mode
  | halted mode => exact .inl mode
  | left | unfetched | refused => exact .inl rfl
  | paused | awaiting | received | held | executed => simp at last

theorem Alike.mode_of_over (alike : m.Alike p) (isOver : p.IsOver) : m.mode = p.mode := by
  refine alike.mode.resolve_right fun paused => ?_
  have active := paused.2.2
  rcases isOver with mode | mode <;> simp [mode, Mode.isActive] at active

/-- Nothing that is called of it while a worker drives it changes that. -/
theorem IsOver.remote (isOver : m.IsOver) (remote : call.isRemote) :
    (m.perform call).1.work = m.work ∧ (m.perform call).1.mode = m.mode := by
  have inactive : ¬ m.mode.isActive ∧ m.mode ≠ .paused := by
    rcases isOver with mode | mode <;> simp [mode, Mode.isActive]
  by_cases reaches : call.reaches
  · obtain ⟨keypad, frame, -, performed⟩ := m.perform_of_reaches reaches
    exact ⟨work_of_reaches reaches, by rw [performed]⟩
  cases call with
  | pause => simp [perform, pause, inactive]
  | resume => simp [perform, resume, inactive]
  | press | release | takeFrame => exact absurd rfl reaches
  | load | step | singleStep | tick | syncTimers => cases remote

end Machine

/-- Whether something that happens to a runner is a pass of its worker or a call that is made of
its machine meanwhile. -/
def RunnerEvent.isRemote : RunnerEvent → Bool
  | .pass _ => true
  | .call made => made.isRemote
  | .stop => false

namespace Runner

/-- How far a runner has come with a loop that ends in this machine, with this outcome. -/
inductive Follows (final : Machine) (outcome : Except Fault Unit) (r : Runner) : Prop where
  | working (worker : r.worker = .working) (unasked : r.stopRequested = false)
      {p : Machine} {count : Nat} {cycles : List Cycle} (alike : r.machine.Alike p)
      (loop : p.loop count = some ⟨cycles, final, outcome⟩)
      (deaf : ∀ i, .executed i ∈ cycles → ¬ i.Senses)
  | ended (worker : r.worker = .ended outcome) (work : r.machine.work = final.work)
      (mode : r.machine.mode = final.mode) (isOver : final.IsOver)

variable {r : Runner} {final : Machine} {outcome : Except Fault Unit}

/-- What a worker that goes on does in a pass goes by what its tick answers. -/
theorem pass_of_working (worker : r.worker = .working) (unasked : r.stopRequested = false)
    (now : Int) :
    r.pass now = match r.machine.tick now with
      | (machine, .ok .halted) => { r with machine, worker := .ended (.ok ()) }
      | (machine, .ok _) => { r with machine }
      | (machine, .error fault) => { r with machine, worker := .ended (.error fault) } := by
  simp only [pass, worker, unasked, Bool.false_eq_true, if_false]
  rcases r.machine.tick now with ⟨machine, fault | cycle⟩
  · rfl
  · cases cycle <;> rfl

/-- The step that ends the loop ends the worker with it. -/
theorem Follows.of_last (worker : r.worker = .ended outcome) (alike : r.machine.Alike final)
    (isOver : final.IsOver) : r.Follows final outcome :=
  .ended worker alike.work (alike.mode_of_over isOver) isOver

/-- A pass of the worker makes the next step of the loop, or waits for a pause to end. -/
theorem Follows.pass (follows : r.Follows final outcome) (now : Int) :
    (r.pass now).Follows final outcome := by
  cases follows with
  | ended worker work mode isOver =>
    have stands : r.pass now = r := by simp [Runner.pass, worker]
    rw [stands]
    exact .ended worker work mode isOver
  | @working worker unasked p count cycles alike loop deaf =>
    have synced := alike.syncTimers now
    have effect := Machine.step_effect alike.soundLoop
    rw [pass_of_working worker unasked, Machine.tick]
    by_cases paused : (r.machine.syncTimers now).mode = .paused
    -- The loop stands still while the worker waits.
    · rw [Machine.step_of_paused paused]
      exact .working worker unasked synced loop deaf
    · cases count with
      | zero => cases loop
      | succ count =>
        obtain ⟨same, stepped⟩ := synced.step paused (Machine.of_loop loop deaf)
        generalize (r.machine.syncTimers now).step = done at same stepped ⊢
        obtain ⟨machine, answer⟩ := done
        dsimp only at same stepped ⊢
        subst same
        cases Machine.loop_effect loop with
        | halted step =>
          rw [step]
          exact .of_last rfl stepped (effect.over (.inl step))
        | failed step =>
          rw [step]
          exact .of_last rfl stepped (effect.over (.inr ⟨_, step⟩))
        | @goesOn cycle rest _ _ step going later =>
          have quiet (i : Instruction) (mem : .executed i ∈ rest) : ¬ i.Senses :=
            deaf i (List.mem_cons_of_mem _ mem)
          rw [step]
          cases cycle with
          | halted => exact absurd rfl going
          | executed | keyReceived | awaitingKey | paused =>
            exact .working worker unasked stepped later quiet

theorem Follows.perform (follows : r.Follows final outcome) {event : RunnerEvent}
    (remote : event.isRemote) : (r.perform event).Follows final outcome := by
  cases event with
  | stop => cases remote
  | pass now => exact follows.pass now
  | call call =>
    cases follows with
    | working worker unasked alike loop deaf =>
      exact .working worker unasked (alike.remote remote) loop deaf
    | ended worker work mode isOver =>
      have stands : r.machine.IsOver := by rwa [Machine.IsOver, mode]
      obtain ⟨work', mode'⟩ := stands.remote remote
      exact .ended worker (work'.trans work) (mode'.trans mode) isOver

theorem Follows.after {schedule : List RunnerEvent} (follows : r.Follows final outcome)
    (remote : ∀ event ∈ schedule, event.isRemote) : (r.after schedule).Follows final outcome := by
  induction schedule generalizing r with
  | nil => exact follows
  | cons event rest ih =>
    obtain ⟨here, later⟩ := List.forall_mem_cons.1 remote
    exact ih (follows.perform here) later

/-- A machine whose loop ends is handed over to a worker that follows the loop. -/
theorem follows_spawn {m : Machine} (sound : m.Sound) {count : Nat} {ending : Ending}
    (loop : m.loop count = some ending) (deaf : ∀ i, .executed i ∈ ending.cycles → ¬ i.Senses) :
    (spawn m).Follows ending.machine ending.outcome := by
  have awake : m.mode ≠ .paused := fun paused => by
    rw [Machine.loop_of_stuck (Machine.step_of_paused paused) (by simp)] at loop
    cases loop
  have arrived (waits : m.mode = .awaitingKey) :
      ∃ register key, m.keypad.wait = .resolved register key := by
    cases wait : m.keypad.wait with
    | resolved register key => exact ⟨register, key, rfl⟩
    | idle | waiting =>
      have step : m.step = (m, .ok .awaitingKey) := by
        simp [Machine.step, waits, Machine.keyCycle, Keypad.take, wait, Machine.guard]
      rw [Machine.loop_of_stuck step (by simp)] at loop
      cases loop
  have alike : m.Alike m := by
    refine ⟨sound, sound, rfl, .inl rfl, awake, fun waits => ?_⟩
    obtain ⟨register, key, wait⟩ := arrived waits
    exact ⟨register, key, wait, wait⟩
  exact .working rfl rfl alike loop deaf

/-- A worker that drives a machine carries out the plain loop. If the loop ends, and no instruction
that it executes senses the time or the keys, then whatever is called of the machine between the
passes of the worker, and whenever these are, the machine of a worker that ended has come exactly
as far as the loop comes, in the same mode, and joining reports how the loop ends. -/
theorem ended_as_loop (random : Random) (calls : List Call) (count : Nat) (ending : Ending)
    (schedule : List RunnerEvent)
    (loop : ((Machine.fresh random).after calls).loop count = some ending)
    (deaf : ∀ i, .executed i ∈ ending.cycles → ¬ i.Senses)
    (remote : ∀ event ∈ schedule, event.isRemote) (outcome : Except Fault Unit) :
    let r := (spawn ((Machine.fresh random).after calls)).after schedule
    r.worker = .ended outcome →
      r.machine.work = ending.machine.work ∧ r.machine.mode = ending.machine.mode ∧
        ∀ now, r.join now = ending.outcome := by
  intro r ended
  have follows : r.Follows ending.machine ending.outcome :=
    (follows_spawn (Machine.sound_after random calls) loop deaf).after remote
  cases follows with
  | working worker => cases ended.symm.trans worker
  | ended worker work mode => exact ⟨work, mode, join_ended worker⟩

/-- A program that sets a register and then comes to a word that encodes nothing. -/
def faultyProgram : List UInt8 := [0x60, 0x05, 0x50, 0x01]

theorem step_faultyProgram {m : Machine} (placed : m.Placed faultyProgram 0) :
    ∃ next, m.step = (next, .ok (.executed (.set 0 5))) ∧ next.Placed faultyProgram 2 := by
  obtain ⟨next, step, placed, -⟩ := placed.step 2 placed.fetch rfl
    (by decide) rfl (congrArg (· + 2) placed.pc) (by decide)
  exact ⟨next, step, placed⟩

theorem fail_faultyProgram {m : Machine} (placed : m.Placed faultyProgram 2) :
    m.step = (m.fail (.illegalOpcode 0x5001), .error (.illegalOpcode 0x5001)) :=
  Machine.step_of_unfetched placed.mode placed.inProgram placed.fetch

theorem loop_faultyProgram {m : Machine} (placed : m.Placed faultyProgram 0) :
    ∃ final, m.loop 2 =
      some ⟨[.executed (.set 0 5)], final, .error (.illegalOpcode 0x5001)⟩ := by
  obtain ⟨next, step, placed⟩ := step_faultyProgram placed
  refine ⟨next.fail (.illegalOpcode 0x5001), ?_⟩
  simp only [Machine.loop, step, fail_faultyProgram placed, Option.map_some]

/-- The worker waits for the pause to end and then makes both steps. -/
theorem worker_faultyProgram {m : Machine} (placed : m.Placed faultyProgram 0) :
    ((spawn m).after [.call .pause, .pass 0, .call .resume, .pass 5, .pass 7]).worker =
      .ended (.error (.illegalOpcode 0x5001)) := by
  have paused : (spawn m).after [.call .pause, .pass 0, .call .resume] =
      spawn { m with clock := .stopped, resumeTo := .running } := by
    obtain ⟨registers, memory, stack, frame, keypad, random, clock, mode, resumeTo, size,
      fault⟩ := m
    obtain rfl : mode = .running := placed.mode
    rfl
  have started : m.mode ≠ .idle ∧ m.mode ≠ .halted := by simp [placed.mode]
  have sound : Machine.Sound { m with clock := .stopped, resumeTo := .running } :=
    placed.sound.underWay started.1 started.2 .stopped started.1 started.2 rfl
      (by simp [Machine.AwaitsKey, placed.mode])
  have resumed : Machine.Placed { m with clock := .stopped, resumeTo := .running }
      faultyProgram 0 := { placed with sound }
  obtain ⟨next, step, placed⟩ := step_faultyProgram (resumed.syncTimers 5)
  have fail := fail_faultyProgram (placed.syncTimers 7)
  have split : [RunnerEvent.call .pause, .pass 0, .call .resume, .pass 5, .pass 7] =
    [.call .pause, .pass 0, .call .resume] ++ [.pass 5, .pass 7] := rfl
  rw [split, after_append, paused]
  simp only [after, List.foldl_cons, List.foldl_nil, perform]
  rw [pass_of_working rfl rfl 5]
  simp only [spawn, Machine.tick, step]
  rw [pass_of_working rfl rfl 7]
  simp only [Machine.tick, fail]

theorem ended_as_loop_faultyProgram :
    let m := (Machine.fresh (.ofSeed 1)).after [.load faultyProgram]
    let schedule : List RunnerEvent :=
      [.call .pause, .pass 0, .call .resume, .pass 5, .pass 7]
    let r := (spawn m).after schedule
    ∃ ending, m.loop 2 = some ending ∧ (∀ i, .executed i ∈ ending.cycles → ¬ i.Senses) ∧
      (∀ event ∈ schedule, event.isRemote) ∧
      r.worker = .ended (.error (.illegalOpcode 0x5001)) ∧
      r.machine.work = ending.machine.work ∧ r.join 9 = .error (.illegalOpcode 0x5001) := by
  have start :
      ((Machine.fresh (.ofSeed 1)).after [.load faultyProgram]).Placed faultyProgram 0 := by
    rw [Machine.after_load _ (by decide), Machine.after_nil]
    exact Machine.placed_loaded _ (by decide) (by decide)
  obtain ⟨final, loop⟩ := loop_faultyProgram start
  have deaf (i : Instruction) (executed : .executed i ∈ [Cycle.executed (.set 0 5)]) :
      ¬ i.Senses := by
    cases List.mem_singleton.1 executed
    exact id
  have remote : ∀ event ∈ [RunnerEvent.call .pause, .pass 0, .call .resume, .pass 5, .pass 7],
    event.isRemote := by decide
  have ended := worker_faultyProgram start
  obtain ⟨work, -, joined⟩ :=
    ended_as_loop (.ofSeed 1) [.load faultyProgram] 2 _ _ loop deaf remote _ ended
  exact ⟨_, loop, deaf, remote, ended, work, joined 9⟩

end Runner

end Chip8
