import Chip8.Proofs.Step

/-!
# What a step does not look at

Whether the frame is stale, from when the clock counts and in which mode a paused machine goes on
are of no concern to a step. With others put in the place of its own (`Machine.within`), a machine
executes every instruction as before, one case for each in `execute_within`, and makes the same
step (`step_within`). A step may mark the frame as stale and leaves the clock and the mode to go on
in as they are.
-/

namespace Chip8
set_option autoImplicit false

/-- The parts of a machine that a step does not look at. -/
structure Setting where
  /-- Whether a copy of the frame taken earlier may be out of date. -/
  stale : Bool
  clock : Clock
  resumeTo : Mode

/-- The setting after a step that marked the frame as stale, or that did not. -/
def Setting.marked (s : Setting) (mark : Bool) : Setting := { s with stale := mark || s.stale }

theorem Frame.invertPoint_stale (f : Frame) (hit stale : Bool) (point : Nat × Nat) :
    invertPoint (hit, { f with stale }) point = invertPoint (hit, f) point := by
  simp [invertPoint, Screen.read, Screen.write, set, get]

theorem Frame.stale_foldl_invertPoint {f : Frame} (hit : Bool) (points : List (Nat × Nat))
    (stale : f.stale = true) : (points.foldl invertPoint (hit, f)).2.stale = true := by
  induction points generalizing hit f with
  | nil => exact stale
  | cons point rest ih => exact ih _ (by simp [Screen.write, set])

/-- Inverting points marks the frame as stale, unless there are none. -/
theorem Frame.invertPoints_stale (f : Frame) (points : List (Nat × Nat)) :
    ∃ mark : Bool, ∀ stale, invertPoints { f with stale } points =
      ((invertPoints f points).1, { (invertPoints f points).2 with stale := mark || stale }) := by
  cases points with
  | nil => exact ⟨false, fun _ => rfl⟩
  | cons point rest =>
    have marked : (invertPoints f (point :: rest)).2.stale = true :=
      stale_foldl_invertPoint _ rest (by simp [Screen.write, set])
    refine ⟨true, fun stale => ?_⟩
    rw [Bool.true_or, ← marked]
    simp only [invertPoints, List.foldl_cons, invertPoint_stale]

namespace Machine

/-- The machine in another setting. -/
def within (m : Machine) (s : Setting) : Machine :=
  { m with
    frame := { m.frame with stale := s.stale }
    clock := s.clock
    resumeTo := s.resumeTo }

/-- The setting of this machine. -/
def setting (m : Machine) : Setting :=
  { stale := m.frame.stale, clock := m.clock, resumeTo := m.resumeTo }

/-- What comes out in other settings is the same, except that the frame may be marked as stale. -/
def SameWithin {α : Type} (done : Machine × α) (done' : Setting → Machine × α) : Prop :=
  ∃ mark : Bool, ∀ s, done' s = (done.1.within (s.marked mark), done.2)

variable (m : Machine)

theorem changeRegisters_within (registers : Except Fault RegisterFile) :
    SameWithin (m.changeRegisters registers) fun s => (m.within s).changeRegisters registers := by
  cases registers <;> exact ⟨false, fun _ => rfl⟩

theorem finishTransfer_within (x : UInt8) (outcome : Except Fault Unit) :
    SameWithin (m.finishTransfer x outcome) fun s => (m.within s).finishTransfer x outcome := by
  cases outcome with
  | error => exact ⟨false, fun _ => rfl⟩
  | ok done => exact m.changeRegisters_within _

theorem draw_within (x y rows : UInt8) :
    SameWithin (m.draw x y rows) fun s => (m.within s).draw x y rows := by
  have read (s : Setting) (x : Nat) : (m.within s).registers.read x = m.registers.read x := rfl
  have slice (s : Setting) : (m.within s).memory.slice (m.within s).index rows.toNat =
    m.memory.slice m.index rows.toNat := rfl
  simp only [draw, drawSprite, read, slice]
  cases m.registers.read x.toNat with
  | error => exact ⟨false, fun _ => rfl⟩
  | ok across =>
    cases m.registers.read y.toNat with
    | error => exact ⟨false, fun _ => rfl⟩
    | ok down =>
      cases m.memory.slice m.index rows.toNat with
      | error => exact ⟨false, fun _ => rfl⟩
      | ok sprite =>
        obtain ⟨mark, painted⟩ := m.frame.invertPoints_stale (spritePoints across down sprite)
        refine ⟨mark, fun s => ?_⟩
        have painted : paint (m.within s).frame across down sprite = _ := painted s.stale
        simp only [ok_bind, painted]
        rfl

/-- Every instruction has the same effect in every setting. -/
theorem execute_within (i : Instruction) :
    SameWithin (m.execute i) fun s => (m.within s).execute i := by
  have read (s : Setting) (x : Nat) : (m.within s).registers.read x = m.registers.read x := rfl
  cases i with
  | system | jump => exact ⟨false, fun _ => rfl⟩
  | clear => exact ⟨true, fun _ => rfl⟩
  | ret =>
    simp only [execute]
    change SameWithin _ fun s => (m.within s).whole (m.stack.pop >>= _)
    cases m.stack.pop <;> exact ⟨false, fun _ => rfl⟩
  | call target =>
    change SameWithin _ fun s => (m.within s).whole (m.stack.push (m.pc + 2) >>= _)
    simp only [execute]
    cases m.stack.push (m.pc + 2) <;> exact ⟨false, fun _ => rfl⟩
  | skip test expected =>
    have answer (s : Setting) : (m.within s).answer test = m.answer test := by
      cases test <;> rfl
    simp only [execute, answer]
    cases m.answer test <;> exact ⟨false, fun _ => rfl⟩
  | jumpOffset base =>
    simp only [execute, read]
    cases m.registers.read 0 <;> exact ⟨false, fun _ => rfl⟩
  | awaitKey x =>
    simp only [execute, read]
    cases m.registers.read x.toNat <;> exact ⟨false, fun _ => rfl⟩
  | set | increase | arithmetic | setIndex | readDelay | setDelay | setSound | increaseIndex
  | pointGlyph => exact m.changeRegisters_within _
  | random => exact changeRegisters_within { m with random := m.random.next.2 } _
  | draw x y rows => exact m.draw_within x y rows
  | storeDecimal x =>
    change SameWithin (m.storeDecimal x) fun s => (m.within s).storeDecimal x
    simp only [storeDecimal, read]
    cases m.registers.read x.toNat <;> exact ⟨false, fun _ => rfl⟩
  | storeRegisters x => exact finishTransfer_within { m with memory := _ } x _
  | loadRegisters x => exact finishTransfer_within (m.withRegisters _) x _

theorem proceed_within (s : Setting) (progress : Progress) :
    (m.within s).proceed progress = (m.proceed progress).map (·.within s) := by
  have moveTo (address : Nat) :
      (m.within s).moveTo address = (m.moveTo address).map (·.within s) := by
    change (m.registers.setPc address >>= _) = _
    unfold Machine.moveTo
    cases m.registers.setPc address <;> rfl
  cases progress with
  | next => exact moveTo (m.pc + 2)
  | skip => exact moveTo (m.pc + 4)
  | jump target => exact moveTo target
  | hold => rfl

theorem settle_within (s : Setting) : (m.within s).settle = m.settle.map (·.within s) := by
  change (m.inProgram >>= _) = _
  unfold settle
  cases m.inProgram with
  | error => rfl
  | ok inside => cases inside <;> rfl

/-- The end of a step is the same in every setting. -/
theorem conclude_within (s : Setting) (progress : Progress) (cycle : Cycle) :
    (m.within s).conclude progress cycle =
      ((m.conclude progress cycle).1.within s, (m.conclude progress cycle).2) := by
  unfold conclude
  rw [proceed_within]
  cases m.proceed progress with
  | error => rfl
  | ok moved =>
    change (if moved.mode = .running then _ else _) = _
    rw [settle_within]
    by_cases running : moved.mode = .running
    · simp only [running, if_true]
      cases moved.settle <;> rfl
    · simp only [running, if_false]

theorem guard_within (s : Setting) (done : Machine × Except Fault Cycle) :
    guard (done.1.within s, done.2) = ((guard done).1.within s, (guard done).2) := by
  obtain ⟨after, _ | _⟩ := done <;> rfl

theorem instructionCycle_within :
    SameWithin m.instructionCycle fun s => (m.within s).instructionCycle := by
  have same (s : Setting) : (m.within s).fetch = m.fetch := rfl
  cases fetch : m.fetch with
  | error fault => exact ⟨false, fun s => by simp only [instructionCycle, same, fetch]; rfl⟩
  | ok i =>
    obtain ⟨mark, execute⟩ := m.execute_within i
    refine ⟨mark, fun s => ?_⟩
    have execute : (m.within s).execute i = _ := execute s
    rw [instructionCycle_of_fetch fetch]
    refine (instructionCycle_of_fetch ((same s).trans fetch)).trans ?_
    rw [execute]
    cases (m.execute i).2 with
    | error => rfl
    | ok progress => exact conclude_within _ _ progress _

theorem runCycle_within : SameWithin m.runCycle fun s => (m.within s).runCycle := by
  have same (s : Setting) : (m.within s).inProgram = m.inProgram := rfl
  simp only [runCycle, same]
  cases m.inProgram with
  | error => exact ⟨false, fun _ => rfl⟩
  | ok inside =>
    cases inside with
    | false => exact ⟨false, fun _ => rfl⟩
    | true => exact m.instructionCycle_within

theorem keyCycle_within (s : Setting) :
    (m.within s).keyCycle = (m.keyCycle.1.within s, m.keyCycle.2) := by
  have same : (m.within s).keypad.take = m.keypad.take := rfl
  unfold keyCycle
  rw [same]
  rcases m.keypad.take with ⟨_ | ⟨register, key⟩, keypad⟩
  · rfl
  · have receive : ({ m.within s with keypad } : Machine).receiveKey register key =
        (({ m with keypad } : Machine).receiveKey register key).map (·.within s) := by
      unfold receiveKey
      change (m.registers.writeNat register.toNat key.toNat >>= _) = _
      cases m.registers.writeNat register.toNat key.toNat <;> rfl
    simp only [receive]
    cases ({ m with keypad } : Machine).receiveKey register key with
    | error => rfl
    | ok received => exact received.conclude_within s .next _

/-- A step is the same in every setting. -/
theorem step_within : SameWithin m.step fun s => (m.within s).step := by
  have same (s : Setting) : (m.within s).mode = m.mode := rfl
  cases mode : m.mode with
  | idle | paused | halted =>
    exact ⟨false, fun s => by simp only [step, same, mode]; rfl⟩
  | awaitingKey =>
    refine ⟨false, fun s => ?_⟩
    simp only [step, same, mode, keyCycle_within, guard_within]
    rfl
  | running =>
    obtain ⟨mark, cycle⟩ := m.runCycle_within
    refine ⟨mark, fun s => ?_⟩
    simp only [step, same, mode, cycle, guard_within]

/-- A step neither reads nor changes the clock and the mode to go on in. -/
theorem step_adjusted (clock : Clock) (resumeTo : Mode) :
    ({ m with clock, resumeTo } : Machine).step =
      ({ m.step.1 with clock, resumeTo }, m.step.2) := by
  obtain ⟨mark, step⟩ := m.step_within
  have own : m.step.1 = m.step.1.within (m.setting.marked mark) :=
    congrArg Prod.fst (step m.setting)
  have stale : m.step.1.frame.stale = (mark || m.frame.stale) :=
    congrArg (fun after => after.frame.stale) own
  have other := step { m.setting with clock, resumeTo }
  refine other.trans ?_
  simp only [within, Setting.marked, setting, ← stale]

theorem step_clock : m.step.1.clock = m.clock :=
  congrArg (fun done => done.1.clock) (m.step_adjusted m.clock m.resumeTo)

end Machine

end Chip8
