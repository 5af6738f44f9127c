import Chip8.Proofs.Failure
import Chip8.Proofs.Setting
import Chip8.Proofs.Slicing

/-!
# What the timers lose

A step changes a timer only by setting it (`StepEffect.timer_of_unset`), so between two settings a
timer loses just the periods that the clock counts (`Timed.history`): the whole periods from the
first instant at which it was asked to the latest (`Clock.periodsIn`).
-/

namespace Chip8
set_option autoImplicit false

/-- The timers of the machine. -/
inductive Timer where
  | delay
  | sound

namespace Timer

/-- What a timer stands at. -/
def value (r : RegisterFile) : Timer → UInt8
  | delay => r.delay
  | sound => r.sound

/-- The instruction that sets a timer to a V register. -/
def setter (x : UInt8) : Timer → Instruction
  | delay => .setDelay x
  | sound => .setSound x

variable {r : RegisterFile} (timer : Timer)

theorem value_decay (periods : Nat) :
    (timer.value (r.decay periods)).toNat = (timer.value r).toNat - periods := by
  have small (byte : UInt8) : (byte.toNat - periods) % 2 ^ 8 = byte.toNat - periods :=
    Nat.mod_eq_of_lt (Nat.lt_of_le_of_lt (Nat.sub_le ..) byte.toNat_lt)
  cases timer <;> simp only [value, RegisterFile.decay, UInt8.toNat_ofNat', small]

end Timer

/-- Whether a call presses a key or lets it go. -/
def Call.keys : Call → Bool
  | .press _ | .release _ => true
  | _ => false

namespace Machine

variable {m after : Machine} (timer : Timer)

/-- The instants at which a history lets the timers catch up before a step. -/
def instants (calls : List Call) : List Int :=
  calls.filterMap fun
    | .tick now => some now
    | _ => none

/-- Each call of a history presses a key or lets it go, or is a tick of a machine under way. -/
def Ticks (m : Machine) : List Call → Prop
  | [] => True
  | call :: rest =>
    (call.keys ∨ ∃ now, call = .tick now ∧ m.mode.isActive) ∧ (m.perform call).1.Ticks rest

theorem ticks_append (m : Machine) (calls more : List Call) :
    m.Ticks (calls ++ more) ↔ m.Ticks calls ∧ (m.after calls).Ticks more := by
  induction calls generalizing m with
  | nil => simp [Ticks]
  | cons call rest ih => simp [Ticks, ih, and_assoc]

/-- Only the instruction that sets a timer touches it. -/
theorem execute_timer {i : Instruction} (other : ∀ x, i ≠ timer.setter x) :
    timer.value (m.execute i).1.registers = timer.value m.registers := by
  have touches := m.execute_footprint i
  generalize (m.execute i).1 = after at touches
  cases i with
  | system | clear | jump | skip | jumpOffset =>
    cases touches
    rfl
  | ret | call | awaitKey | storeDecimal =>
    obtain ⟨_, rfl⟩ := touches
    rfl
  | set | increase | arithmetic | setIndex | readDelay | increaseIndex | pointGlyph | random =>
    obtain ⟨_, rfl⟩ := touches
    cases timer <;> rfl
  | draw | storeRegisters | loadRegisters =>
    obtain ⟨_, _, rfl⟩ := touches
    cases timer <;> rfl
  | setDelay x =>
    obtain ⟨_, rfl⟩ := touches
    cases timer with
    | delay => exact absurd rfl (other x)
    | sound => rfl
  | setSound x =>
    obtain ⟨_, rfl⟩ := touches
    cases timer with
    | delay => rfl
    | sound => exact absurd rfl (other x)

/-- Where it succeeds, it sets the timer to the V register that it names. -/
theorem execute_setter {x : UInt8} {progress : Progress}
    (h : (m.execute (timer.setter x)).2 = .ok progress) :
    m.registers.read x.toNat = .ok (timer.value (m.execute (timer.setter x)).1.registers) := by
  cases timer with
  | delay | sound =>
    cases read : m.registers.read x.toNat with
    | error => simp [Timer.setter, execute, read, changeRegisters_snd, Except.map] at h
    | ok byte => simp [Timer.setter, Timer.value, execute, read, changeRegisters, whole,
        Except.map, withRegisters]

theorem value_withPc (m : Machine) (pc : Register 16) :
    timer.value (m.withPc pc).settled.registers = timer.value m.registers := by
  rw [settled_registers]
  cases timer <;> rfl

/-- A step leaves a timer alone unless it executes the instruction that sets it. -/
theorem StepEffect.timer_of_unset {outcome : Except Fault Cycle}
    (effect : m.StepEffect after outcome) (sound : m.Sound)
    (unset : ∀ x, outcome ≠ .ok (.executed (timer.setter x))) :
    timer.value after.registers = timer.value m.registers := by
  cases effect with
  | idle | halted | paused | awaiting | left | unfetched | held => rfl
  | received _ _ write =>
    obtain ⟨v, rfl⟩ := RegisterFile.write_changes_v write
    rw [settled_registers]
    cases timer <;> rfl
  | refused mode inside fetch execute =>
    have effect : m.StepEffect _ _ := .refused mode inside fetch execute
    have kept := (effect.failed sound (by simp [mode])).toKept
    cases timer with
    | delay => exact kept.delay
    | sound => exact kept.sound
  | executed =>
    rw [value_withPc]
    exact execute_timer timer fun x setter => unset x (by rw [setter])

theorem StepEffect.timer_of_set {x : UInt8}
    (effect : m.StepEffect after (.ok (.executed (timer.setter x)))) :
    m.registers.read x.toNat = .ok (timer.value after.registers) := by
  generalize executed : timer.setter x = i at effect
  cases effect with
  | held => cases timer <;> cases executed
  | executed _ _ _ execute =>
    subst executed
    rw [value_withPc]
    exact execute_setter timer execute

/-- A sound machine whose clock was asked at these instants. -/
structure Timed (m : Machine) (asked : List Int) : Prop where
  sound : m.Sound
  clock : m.clock = .asked asked

variable {asked : List Int} {now : Int} {call : Call}

theorem syncTimers_of_timed (timed : m.Timed asked) (active : m.mode.isActive)
    (few : Clock.periodsIn (asked ++ [now]) ≤ Clock.greatestCount) :
    m.syncTimers now =
      { m with
        registers := m.registers.decay
          (Clock.periodsIn (asked ++ [now]) - Clock.periodsIn asked)
        clock := .asked (asked ++ [now]) } := by
  rw [syncTimers, if_pos active, timed.clock, Clock.sync_asked few]

theorem Timed.tick (timed : m.Timed asked) (active : m.mode.isActive)
    (few : Clock.periodsIn (asked ++ [now]) ≤ Clock.greatestCount) :
    (m.perform (.tick now)).1.Timed (asked ++ [now]) where
  sound := timed.sound.tick now
  clock := by
    rw [perform, Machine.tick, step_clock, syncTimers_of_timed timed active few]

/-- A tick that does not set a timer takes off the periods that were not counted yet. -/
theorem Timed.timer_of_unset (timed : m.Timed asked) (active : m.mode.isActive)
    (few : Clock.periodsIn (asked ++ [now]) ≤ Clock.greatestCount)
    (unset : ∀ x, (m.perform (.tick now)).2 ≠ .cycle (.ok (.executed (timer.setter x)))) :
    (timer.value (m.perform (.tick now)).1.registers).toNat =
      (timer.value m.registers).toNat -
        (Clock.periodsIn (asked ++ [now]) - Clock.periodsIn asked) := by
  have effect := step_effect (timed.sound.syncTimers now)
  have stepped := effect.timer_of_unset timer (timed.sound.syncTimers now)
    fun x executed => unset x (congrArg Answer.cycle executed)
  rw [perform, Machine.tick, stepped, syncTimers_of_timed timed active few, Timer.value_decay]

/-- A tick that sets a timer sets it to what the V register holds. -/
theorem Timed.timer_of_set (timed : m.Timed asked) {x : UInt8}
    (set : (m.perform (.tick now)).2 = .cycle (.ok (.executed (timer.setter x)))) :
    m.registers.read x.toNat = .ok (timer.value (m.perform (.tick now)).1.registers) := by
  have effect := step_effect (timed.sound.syncTimers now)
  rw [show (m.syncTimers now).step.2 = _ from Answer.cycle.inj set] at effect
  have v : (m.syncTimers now).registers.v = m.registers.v := congrArg Work.v (m.syncTimers_work now)
  have stored := effect.timer_of_set timer
  unfold RegisterFile.read at stored ⊢
  rwa [v] at stored

/-- The presses and releases between two ticks do not matter. -/
theorem perform_of_keys (keys : call.keys) :
    (m.perform call).1.registers = m.registers ∧ (m.perform call).1.clock = m.clock := by
  have reaches : call.reaches := by
    cases call with
    | press | release => rfl
    | load | step | singleStep | tick | syncTimers | pause | resume | takeFrame => cases keys
  obtain ⟨keypad, frame, -, performed⟩ := m.perform_of_reaches reaches
  simp only [performed, and_self]

theorem instants_of_keys (keys : call.keys) (rest : List Call) :
    instants (call :: rest) = instants rest := by
  cases call with
  | press | release => rfl
  | load | step | singleStep | tick | syncTimers | pause | resume | takeFrame => cases keys

/-- A history of ticks that does not set a timer takes off the periods that were not counted
before, and the clock counts each of them once. -/
theorem Timed.history {calls : List Call} (timed : m.Timed asked) (ticks : m.Ticks calls)
    (few : Clock.periodsIn (asked ++ instants calls) ≤ Clock.greatestCount) :
    (m.after calls).Timed (asked ++ instants calls) ∧
      ((∀ x, .cycle (.ok (.executed (timer.setter x))) ∉ m.answers calls) →
        (timer.value (m.after calls).registers).toNat = (timer.value m.registers).toNat -
          (Clock.periodsIn (asked ++ instants calls) - Clock.periodsIn asked)) := by
  induction calls generalizing m asked with
  | nil => simpa [instants] using timed
  | cons call rest ih =>
    obtain ⟨keys | ⟨now, rfl, active⟩, ticks⟩ := ticks
    · obtain ⟨registers, clock⟩ := m.perform_of_keys keys
      rw [instants_of_keys keys] at few ⊢
      obtain ⟨timed, unset⟩ := ih ⟨timed.sound.perform call, clock.trans timed.clock⟩ ticks few
      refine ⟨timed, fun quiet => ?_⟩
      rw [after_cons, unset fun x mem => quiet x (List.mem_cons_of_mem _ mem), registers]
    · have split : asked ++ instants (.tick now :: rest) = asked ++ [now] ++ instants rest := by
        simp [instants]
      rw [split] at few ⊢
      have grows := Clock.periodsIn_le_append asked [now]
      have grows' := Clock.periodsIn_le_append (asked ++ [now]) (instants rest)
      have few' := Nat.le_trans grows' few
      obtain ⟨later, unset⟩ := ih (timed.tick active few') ticks few
      refine ⟨later, fun quiet => ?_⟩
      have first := timed.timer_of_unset timer active few' fun x set =>
        quiet x (set ▸ List.mem_cons_self)
      rw [after_cons, unset fun x mem => quiet x (List.mem_cons_of_mem _ mem), first]
      omega

/-- The timers lose no period and gain none. However the instants lie at which a program is
ticked, a timer stands at what it was set to last, less the whole periods that the instants had
reached at the end but not when it was set, and at zero if it was never set. -/
theorem timers_lose_periods (m₀ m : Machine) (program : List UInt8) (calls : List Call)
    (load : m₀.load program = .ok m) (ticks : m.Ticks calls)
    (few : Clock.periodsIn (instants calls) < UInt32.size) (timer : Timer) :
    ((∀ x, .cycle (.ok (.executed (timer.setter x))) ∉ m.answers calls) →
      timer.value (m.after calls).registers = 0) ∧
    ∀ (first rest : List Call) (now : Int) (x : UInt8), calls = first ++ .tick now :: rest →
      let ticked := (m.after first).perform (.tick now)
      ticked.2 = .cycle (.ok (.executed (timer.setter x))) →
      (∀ y, .cycle (.ok (.executed (timer.setter y))) ∉ ticked.1.answers rest) →
      ∃ v, (m.after first).registers.read x.toNat = .ok v ∧
        (timer.value (m.after calls).registers).toNat = v.toNat -
          (Clock.periodsIn (instants calls) -
            Clock.periodsIn (instants (first ++ [.tick now]))) := by
  obtain ⟨fits, rfl⟩ := load_eq_ok_iff.1 load
  have start : (m₀.loaded program).Timed [] := ⟨m₀.sound_loaded fits, rfl⟩
  have few : Clock.periodsIn (instants calls) ≤ Clock.greatestCount := Nat.le_of_lt_succ few
  refine ⟨fun unset => ?_, ?_⟩
  · have stands := (start.history timer ticks few).2 unset
    have zero : (timer.value (m₀.loaded program).registers).toNat = 0 := by cases timer <;> rfl
    rw [zero, Nat.zero_sub] at stands
    exact UInt8.toNat_inj.1 stands
  · rintro first rest now x rfl ticked set unset
    have upTo : instants (first ++ [.tick now]) = instants first ++ [now] := by simp [instants]
    have all : instants (first ++ .tick now :: rest) =
        instants first ++ [now] ++ instants rest := by simp [instants]
    rw [all] at few
    rw [upTo, all]
    obtain ⟨before, keys | ⟨_, same, active⟩, later⟩ := (ticks_append ..).1 ticks
    · cases keys
    cases same
    have few' := Nat.le_trans (Clock.periodsIn_le_append _ (instants rest)) few
    have few'' := Nat.le_trans (Clock.periodsIn_le_append _ [now]) few'
    have timed := (start.history timer before few'').1
    refine ⟨_, timed.timer_of_set timer set, ?_⟩
    rw [after_append, after_cons]
    exact ((timed.tick active few').history timer later few).2 unset

/-- A program that sets the delay timer to five and then goes nowhere. -/
def delayProgram : List UInt8 := [0x60, 0x05, 0xF0, 0x15, 0x12, 0x04]

theorem ticks_delayProgram (start : m.Placed delayProgram 0) (first second third : Int) :
    m.Ticks [.tick first, .tick second, .tick third] ∧
      (m.after [.tick first]).registers.read 0 = .ok 5 ∧
      ((m.after [.tick first]).perform (.tick second)).2 = .cycle (.ok (.executed (.setDelay 0))) ∧
      ((m.after [.tick first]).perform (.tick second)).1.answers [.tick third] =
        [.cycle (.ok (.executed (.jump 0x204)))] := by
  have set {m : Machine} (placed : m.Placed delayProgram 0) :
      ∃ next, m.step = (next, .ok (.executed (.set 0 5))) ∧ next.Placed delayProgram 2 ∧
        next.registers.read 0 = .ok 5 := by
    obtain ⟨next, step, placed, pc, rfl⟩ := placed.step 2 placed.fetch rfl
      (by decide) rfl (congrArg (· + 2) placed.pc) (by decide)
    refine ⟨_, step, placed, (RegisterFile.read_of_lt _ (by decide)).trans ?_⟩
    exact congrArg Except.ok (Vector.getElem_set_self _)
  have setDelay {m : Machine} (placed : m.Placed delayProgram 2) :
      ∃ next, m.step = (next, .ok (.executed (.setDelay 0))) ∧ next.Placed delayProgram 4 := by
    obtain ⟨next, step, placed, -⟩ := placed.step 4 placed.fetch rfl
      (by decide) rfl (congrArg (· + 2) placed.pc) (by decide)
    exact ⟨next, step, placed⟩
  have jump {m : Machine} (placed : m.Placed delayProgram 4) :
      m.step.2 = .ok (.executed (.jump 0x204)) := by
    obtain ⟨next, step, -⟩ := placed.step (i := .jump 0x204) 4 placed.fetch rfl
      (by decide) rfl rfl (by decide)
    rw [step]
  have active {m : Machine} {offset : Nat} (placed : m.Placed delayProgram offset) :
      m.mode.isActive := congrArg Mode.isActive placed.mode
  obtain ⟨one, step, placed, read⟩ := set (start.syncTimers first)
  obtain ⟨two, step', placed'⟩ := setDelay (placed.syncTimers second)
  have step'' := jump (placed'.syncTimers third)
  simp only [Ticks, after_cons, after_nil, answers, perform, tick, step, step', step'']
  exact ⟨⟨.inr ⟨first, rfl, active start⟩, .inr ⟨second, rfl, active placed⟩,
    .inr ⟨third, rfl, active placed'⟩, trivial⟩, read, trivial, trivial⟩

/-- Two periods after the delay timer was set to five, it stands at three. -/
theorem timers_lose_periods_delayProgram :
    let m₀ := fresh (.ofSeed 0)
    let m := m₀.loaded delayProgram
    let calls : List Call := [.tick 7, .tick 0, .tick 40000000]
    m₀.load delayProgram = .ok m ∧ m.Ticks calls ∧ Clock.periodsIn (instants calls) < UInt32.size ∧
      (Timer.delay.value (m.after calls).registers).toNat = 3 := by
  have start : ((fresh (.ofSeed 0)).loaded delayProgram).Placed delayProgram 0 :=
    placed_loaded _ (by decide) (by decide)
  obtain ⟨ticks, read, set, rest⟩ := ticks_delayProgram start 7 0 40000000
  have load : (fresh (.ofSeed 0)).load delayProgram =
      .ok ((fresh (.ofSeed 0)).loaded delayProgram) := load_eq_ok_iff.2 ⟨by decide, rfl⟩
  have few : Clock.periodsIn (instants [.tick 7, .tick 0, .tick 40000000]) < UInt32.size := by
    decide
  obtain ⟨v, stored, stands⟩ := (timers_lose_periods _ _ delayProgram _ load ticks few .delay).2
    [.tick 7] [.tick 40000000] 0 0 rfl set (by rw [rest]; simp [Timer.setter])
  cases read.symm.trans stored
  have three : (5 : UInt8).toNat - (Clock.periodsIn (instants [.tick 7, .tick 0, .tick 40000000]) -
    Clock.periodsIn (instants [.tick 7, .tick 0])) = 3 := by decide
  exact ⟨load, ticks, few, stands.trans three⟩

end Machine

end Chip8
