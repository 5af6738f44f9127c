import Chip8.Proofs.Outside

/-!
# What a program can see of the outside

Two machines that have the same of their own (`Machine.inside`) make the same step as long as
no instruction listens (`step_same`). By induction on the steps two histories whose calls let the
outside in at different places show the same (`shown_trail`), and so every program runs the same
whatever seed, time and keys it runs with (`outside_unseen`).
-/

namespace Chip8
set_option autoImplicit false

namespace Machine

/-- A step that finds the key that is waited for, if one is, and executes no instruction that
waits for another does not wait afterwards. -/
theorem StepEffect.going {m after : Machine} {outcome : Except Fault Cycle}
    (effect : m.StepEffect after outcome)
    (arrived : m.mode = .awaitingKey → ∃ register key, m.keypad.wait = .resolved register key)
    (deaf : ∀ i, outcome = .ok (.executed i) → ¬ i.Senses) : after.mode ≠ .awaitingKey := by
  cases effect with
  | idle mode | halted mode | paused mode => simp [mode]
  | awaiting mode pending =>
    obtain ⟨register, key, wait⟩ := arrived mode
    exact absurd wait (pending register key)
  | received => exact settled_mode_ne nofun nofun
  | left | unfetched | refused => nofun
  | held => exact absurd trivial (deaf _ rfl)
  | @executed mode _ i =>
    have same : (m.execute i).1.mode = m.mode := (m.execute_sameControl i).mode
    exact settled_mode_ne (by simp [withPc, withRegisters, same, mode]) nofun

end Machine

/-- What a machine has of its own: all of it but what reaches it from outside. -/
structure Inside where
  v : Vector UInt8 16
  index : Register 12
  pc : Register 16
  memory : Memory
  stack : CallStack
  frame : Frame
  mode : Mode
  resumeTo : Mode
  programSize : Option Nat
  fault : Option Fault

namespace Machine

/-- What this machine has of its own. -/
def inside (m : Machine) : Inside :=
  { v := m.registers.v
    index := m.registers.index
    pc := m.registers.pc
    memory := m.memory
    stack := m.stack
    frame := m.frame
    mode := m.mode
    resumeTo := m.resumeTo
    programSize := m.programSize
    fault := m.fault }

theorem inside_under (m : Machine) (o : Outside) : (m.under o).inside = m.inside := rfl

/-- A machine is told by what it has of its own and what reaches it from outside. -/
theorem eq_under_of_inside {m m' : Machine} (same : m'.inside = m.inside) :
    m' = m.under m'.outside := by
  obtain ⟨⟨v, index, pc, delay, sound⟩, memory, stack, frame, keypad, random, clock, mode,
    resumeTo, programSize, fault⟩ := m
  obtain ⟨⟨v', index', pc', delay', sound'⟩, memory', stack', frame', keypad', random', clock',
    mode', resumeTo', programSize', fault'⟩ := m'
  cases same
  rfl

end Machine

/-- Whether a call makes a step, the time being brought up to date before or not. -/
def Call.isStep : Call → Bool
  | .step | .tick _ => true
  | _ => false

/-- Whether a call only lets the outside in: it brings the time up to date, or a key moves. -/
def Call.isOutside : Call → Bool
  | .syncTimers _ | .press _ | .release _ => true
  | _ => false

namespace Machine

/-- What each cycle of a history is answered, with the machine after it. -/
def trail (m : Machine) : List Call → List (Except Fault Cycle × Machine)
  | [] => []
  | call :: rest =>
    match m.perform call with
    | (after, .cycle outcome) => (outcome, after) :: after.trail rest
    | (after, _) => after.trail rest

/-- Whether the cycles execute no instruction that listens. -/
def Deaf (trail : List (Except Fault Cycle × Machine)) : Prop :=
  ∀ i, .ok (.executed i) ∈ trail.map Prod.fst → ¬ i.Listens

/-- What a program shows of a trail. -/
def shown (trail : List (Except Fault Cycle × Machine)) : List (Except Fault Cycle × Inside) :=
  trail.map fun (outcome, after) => (outcome, after.inside)

theorem syncTimers_inside (m : Machine) (now : Int) : (m.syncTimers now).inside = m.inside := by
  unfold syncTimers
  split <;> rfl

/-- A call that only lets the outside in leaves no trace. -/
theorem perform_of_isOutside (m : Machine) {call : Call} (quiet : call.isOutside) :
    (m.perform call).1.inside = m.inside ∧ ∃ outcome, (m.perform call).2 = .done outcome := by
  cases call with
  | syncTimers now => exact ⟨m.syncTimers_inside now, _, rfl⟩
  | press key =>
    simp only [perform, press]
    cases m.keypad.press key <;> exact ⟨rfl, _, rfl⟩
  | release key =>
    simp only [perform, release]
    cases m.keypad.release key <;> exact ⟨rfl, _, rfl⟩
  | load | step | singleStep | tick | pause | resume | takeFrame => cases quiet

theorem trail_of_isOutside (m : Machine) {call : Call} (quiet : call.isOutside) (rest : List Call) :
    m.trail (call :: rest) = (m.perform call).1.trail rest := by
  obtain ⟨-, outcome, answer⟩ := m.perform_of_isOutside quiet
  rw [trail]
  generalize m.perform call = done at answer ⊢
  obtain ⟨after, _⟩ := done
  cases answer
  rfl

/-- A call that makes a step makes it from a machine that has the same of its own. -/
theorem exists_ready (m : Machine) {call : Call} (steps : call.isStep) :
    ∃ ready : Machine, ready.inside = m.inside ∧ (m.Sound → ready.Sound) ∧
      ∀ rest, m.trail (call :: rest) = (ready.step.2, ready.step.1) :: ready.step.1.trail rest := by
  cases call with
  | step => exact ⟨m, rfl, id, fun _ => rfl⟩
  | tick now =>
    exact ⟨m.syncTimers now, m.syncTimers_inside now, fun sound => sound.syncTimers now,
      fun _ => rfl⟩
  | load | singleStep | syncTimers | pause | resume | press | release | takeFrame => cases steps

/-- A trail has one entry for each call that makes a step. -/
theorem length_trail (m : Machine) {calls : List Call}
    (allowed : ∀ call ∈ calls, call.isStep ∨ call.isOutside) :
    (m.trail calls).length = calls.countP Call.isStep := by
  induction calls generalizing m with
  | nil => rfl
  | cons call rest ih =>
    have allowed' : ∀ other ∈ rest, other.isStep ∨ other.isOutside :=
      fun other mem => allowed other (List.mem_cons_of_mem _ mem)
    by_cases makes : call.isStep
    · obtain ⟨ready, -, -, trail⟩ := m.exists_ready makes
      rw [trail, List.countP_cons_of_pos makes, List.length_cons, ih _ allowed']
    · have quiet := (allowed call List.mem_cons_self).resolve_left makes
      rw [m.trail_of_isOutside quiet, List.countP_cons_of_neg makes, ih _ allowed']

/-- The trail of calls that make a step begins with the step of a machine that has the same of
its own. -/
theorem exists_first_step {m : Machine} {calls : List Call} {count : Nat} (sound : m.Sound)
    (allowed : ∀ call ∈ calls, call.isStep ∨ call.isOutside)
    (steps : calls.countP Call.isStep = count + 1) :
    ∃ (ready : Machine) (rest : List Call), ready.inside = m.inside ∧ ready.Sound ∧
      (∀ call ∈ rest, call.isStep ∨ call.isOutside) ∧ rest.countP Call.isStep = count ∧
      m.trail calls = (ready.step.2, ready.step.1) :: ready.step.1.trail rest := by
  induction calls generalizing m with
  | nil => cases steps
  | cons call rest ih =>
    have allowed' : ∀ other ∈ rest, other.isStep ∨ other.isOutside :=
      fun other mem => allowed other (List.mem_cons_of_mem _ mem)
    by_cases makes : call.isStep
    · obtain ⟨ready, same, keeps, trail⟩ := m.exists_ready makes
      rw [List.countP_cons_of_pos makes] at steps
      exact ⟨ready, rest, same, keeps sound, allowed', Nat.succ.inj steps, trail rest⟩
    · have quiet := (allowed call List.mem_cons_self).resolve_left makes
      rw [List.countP_cons_of_neg makes] at steps
      obtain ⟨ready, later, same, ready_sound, rest⟩ := ih (sound.perform call) allowed' steps
      rw [m.trail_of_isOutside quiet]
      exact ⟨ready, later, same.trans (m.perform_of_isOutside quiet).1, ready_sound, rest⟩

/-- Two machines that have the same of their own make the same step, unless the instruction
that the first executes listens. -/
theorem step_same {m m' : Machine} (sound : m.Sound) (going : m.mode ≠ .awaitingKey)
    (deaf : ∀ i, m.step.2 = .ok (.executed i) → ¬ i.Listens) (same : m'.inside = m.inside) :
    m'.step.2 = m.step.2 ∧ m'.step.1.inside = m.step.1.inside := by
  obtain ⟨o, step⟩ := step_under (o := m'.outside) sound (fun waits => absurd waits going)
    fun i executed listens => absurd listens (deaf i executed)
  rw [← eq_under_of_inside same] at step
  rw [step]
  exact ⟨rfl, inside_under _ o⟩

/-- Two machines that have the same of their own show the same for as long as the first
executes no instruction that listens, whatever reaches them from outside. -/
theorem shown_trail {m m' : Machine} {calls calls' : List Call} (sound : m.Sound)
    (sound' : m'.Sound) (going : m.mode ≠ .awaitingKey) (same : m'.inside = m.inside)
    (allowed : ∀ call ∈ calls, call.isStep ∨ call.isOutside)
    (allowed' : ∀ call ∈ calls', call.isStep ∨ call.isOutside)
    (steps : calls'.countP Call.isStep = calls.countP Call.isStep) (deaf : Deaf (m.trail calls)) :
    shown (m'.trail calls') = shown (m.trail calls) := by
  generalize count : calls.countP Call.isStep = n at steps
  induction n generalizing m m' calls calls' with
  | zero =>
    rw [List.eq_nil_of_length_eq_zero ((m.length_trail allowed).trans count),
      List.eq_nil_of_length_eq_zero ((m'.length_trail allowed').trans steps)]
  | succ n ih =>
    obtain ⟨ready, rest, alike, ready_sound, allowed, count, trail⟩ :=
      exists_first_step sound allowed count
    obtain ⟨ready', rest', alike', ready_sound', allowed', steps, trail'⟩ :=
      exists_first_step sound' allowed' steps
    rw [trail] at deaf ⊢
    rw [trail']
    have going : ready.mode ≠ .awaitingKey := by
      have mode : ready.mode = m.mode := congrArg Inside.mode alike
      rwa [mode]
    have first (i : Instruction) (h : ready.step.2 = .ok (.executed i)) : ¬ i.Listens :=
      deaf i (h ▸ List.mem_cons_self)
    have alike : ready'.inside = ready.inside := alike'.trans (same.trans alike.symm)
    obtain ⟨outcome, inside⟩ := step_same ready_sound going first alike
    have later := ih ready_sound.step ready_sound'.step
      ((step_effect ready_sound).going (fun waits => absurd waits going)
        fun i executed senses => first i executed senses.listens) inside allowed allowed'
      (fun i mem => deaf i (List.mem_cons_of_mem _ mem)) count steps
    simp only [shown, List.map_cons, outcome, inside] at later ⊢
    rw [later]

/-- A new machine into which a program was loaded, or refused, has the same of its own whatever
its random bytes are. -/
theorem inside_perform_load (random random' : Random) (program : List UInt8) :
    ((fresh random').perform (.load program)).1.inside =
      ((fresh random).perform (.load program)).1.inside := by
  simp only [perform, load]
  cases Memory.load program <;> rfl

theorem going_perform_load (random : Random) (program : List UInt8) :
    ((fresh random).perform (.load program)).1.mode ≠ .awaitingKey := by
  simp only [perform, load]
  cases Memory.load program with
  | error | ok =>
    intro waits
    cases waits

theorem fst_shown (trail : List (Except Fault Cycle × Machine)) :
    (shown trail).map Prod.fst = trail.map Prod.fst := by
  simp [shown]

/-- A program sees the random bytes, the time and the keys only through the instructions that
listen. If of two runs with the same number of steps one executes none of them, neither does
the other, each of their steps is answered the same, and after it the machines have the same of
their own. -/
theorem outside_unseen (random random' : Random) (program : List UInt8)
    (calls calls' : List Call) (allowed : ∀ call ∈ calls, call.isStep ∨ call.isOutside)
    (allowed' : ∀ call ∈ calls', call.isStep ∨ call.isOutside)
    (steps : calls'.countP Call.isStep = calls.countP Call.isStep) :
    let trail := ((fresh random).after [.load program]).trail calls
    let trail' := ((fresh random').after [.load program]).trail calls'
    trail.length = calls.countP Call.isStep ∧
      (Deaf trail → Deaf trail' ∧ shown trail' = shown trail) := by
  intro trail trail'
  refine ⟨length_trail _ allowed, fun deaf => ?_⟩
  have same : shown trail' = shown trail :=
    shown_trail (sound_after random _) (sound_after random' _) (going_perform_load random program)
      (inside_perform_load random random' program) allowed allowed' steps deaf
  refine ⟨fun i executed => deaf i ?_, same⟩
  rwa [← fst_shown, ← same, fst_shown]

/-- A program that draws a random byte and keeps none of its bits. -/
def maskedProgram : List UInt8 := [0xC0, 0x00]

/-- The program executes its one instruction and is over. -/
theorem trail_maskedProgram (random : Random) :
    (((fresh random).after [.load maskedProgram]).trail [.step, .step]).map Prod.fst =
      [.ok (.executed (.random 0 0)), .ok .halted] := by
  have fits : maskedProgram.length ≤ programLimit := by decide
  have sound := (fresh random).sound_loaded fits
  have inside : ((fresh random).loaded maskedProgram).InProgram := inProgram_loaded _ (by decide)
  have fetch : ((fresh random).loaded maskedProgram).fetch = .ok (.random 0 0) := fetch_loaded _ _
  obtain ⟨pc, lands, step⟩ := step_of_executed sound rfl inside fetch rfl (by decide)
  rw [after_load _ fits, after_nil]
  simp only [trail, perform, step, List.map_cons, List.map_nil]
  have left (m : Machine) (size : m.programSize = some 2) : ¬ (m.withPc pc).InProgram := by
    rintro ⟨other, loaded, -, below⟩
    cases size.symm.trans loaded
    exact absurd lands (Nat.ne_of_lt below)
  rw [settled, if_neg (left _ rfl)]
  rfl

theorem outside_unseen_masked :
    let calls : List Call := [.step, .step]
    let calls' : List Call := [.press 3, .tick 0, .release 3, .syncTimers 50000000, .step]
    let trail := ((fresh (.ofSeed 0)).after [.load maskedProgram]).trail calls
    let trail' := ((fresh (.ofSeed 1)).after [.load maskedProgram]).trail calls'
    (∀ call ∈ calls, call.isStep ∨ call.isOutside) ∧
      (∀ call ∈ calls', call.isStep ∨ call.isOutside) ∧
      calls'.countP Call.isStep = calls.countP Call.isStep ∧ Deaf trail ∧
      Deaf trail' ∧ shown trail' = shown trail := by
  intro calls calls' trail trail'
  have deaf : Deaf trail := by
    intro i executed
    rw [trail_maskedProgram] at executed
    simp only [List.mem_cons, Except.ok.injEq, Cycle.executed.injEq, reduceCtorEq,
      List.not_mem_nil, or_false] at executed
    subst executed
    exact absurd rfl
  have allowed : ∀ call ∈ calls, call.isStep ∨ call.isOutside := by decide
  have allowed' : ∀ call ∈ calls', call.isStep ∨ call.isOutside := by decide
  have unseen :=
    outside_unseen (.ofSeed 0) (.ofSeed 1) maskedProgram calls calls' allowed allowed' rfl
  exact ⟨allowed, allowed', rfl, deaf, unseen.2 deaf⟩

end Machine

end Chip8
