import Chip8.Proofs.Calls

/-!
# A machine under another outside

The time, the keys and the random bytes reach a program through the instructions that listen to
them (`Instruction.Listens`) and in no other way: with another outside put in the place of its
own (`Machine.under`), a machine executes an instruction that does not listen as before, one case
for each instruction in `execute_under`, and makes the same step (`step_under`). If it is given
the same random bytes, this holds of all instructions but those that sense the time and the keys
(`Instruction.Senses`).
-/

namespace Chip8
set_option autoImplicit false

/-- What reaches a machine from outside: the time, the keys and the random bytes. -/
structure Outside where
  delay : UInt8
  sound : UInt8
  keypad : Keypad
  random : Random
  clock : Clock

/-- Whether an instruction lets the program see the delay timer, the keys or a random byte. -/
def Instruction.Listens : Instruction → Prop
  | .readDelay _ | .skip (.key _) _ | .awaitKey _ => True
  | .random _ mask => mask ≠ 0
  | _ => False

/-- Whether an instruction lets the program see the delay timer or the keys. -/
def Instruction.Senses : Instruction → Prop
  | .readDelay _ | .skip (.key _) _ | .awaitKey _ => True
  | _ => False

theorem Instruction.Senses.listens {i : Instruction} (senses : i.Senses) : i.Listens := by
  cases i with
  | readDelay | awaitKey => trivial
  | skip test => cases test <;> exact senses
  | _ => cases senses

/-- A sweep carries over to another kind of state if each of its changes does. -/
theorem sweep_hom {σ τ α : Type} {change : σ → α → Except Fault σ}
    {change' : τ → α → Except Fault τ} (f : σ → τ)
    (same : ∀ s item, change' (f s) item = (change s item).map f) (s : σ) (items : List α) :
    sweep change' (f s) items = (f (sweep change s items).1, (sweep change s items).2) := by
  induction items generalizing s with
  | nil => rfl
  | cons item rest ih =>
    rw [sweep, sweep, same]
    cases change s item with
    | error fault => rfl
    | ok after => exact ih after

namespace RegisterFile

/-- The registers with other timers. -/
def under (r : RegisterFile) (o : Outside) : RegisterFile :=
  { r with delay := o.delay, sound := o.sound }

variable (r : RegisterFile) (o : Outside)

theorem write_under (x : Nat) (byte : UInt8) :
    (r.under o).write x byte = (r.write x byte).map (·.under o) := by
  unfold write
  split <;> rfl

theorem writeNat_under (x value : Nat) :
    (r.under o).writeNat x value = (r.writeNat x value).map (·.under o) := by
  unfold writeNat
  split
  · cases Register.ofNat 8 value <;> rfl
  · rfl

theorem setIndex_under (address : Nat) :
    (r.under o).setIndex address = (r.setIndex address).map (·.under o) := by
  unfold setIndex
  cases Register.ofNat 12 address <;> rfl

theorem setPc_under (address : Nat) :
    (r.under o).setPc address = (r.setPc address).map (·.under o) := by
  unfold setPc
  cases Register.ofNat 16 address <;> rfl

theorem report_under (flag : Option Bool) : (r.under o).report flag = (r.report flag).under o := by
  cases flag <;> rfl

theorem arithmetic_under (op : Arithmetic) (x y : Nat) :
    (r.under o).arithmetic op x y = (r.arithmetic op x y).map (·.under o) := by
  have read (x : Nat) : (r.under o).read x = r.read x := rfl
  unfold arithmetic
  simp only [read, write_under]
  cases bif op.readsTarget then r.read x else .ok 0 with
  | error => rfl
  | ok a =>
    cases r.read y with
    | error => rfl
    | ok b =>
      simp only [ok_bind]
      cases r.write x (op.result a b) with
      | error => rfl
      | ok written => exact congrArg Except.ok (report_under ..)

end RegisterFile

namespace Machine

/-- The machine with another outside. -/
def under (m : Machine) (o : Outside) : Machine :=
  { m with
    registers := m.registers.under o
    keypad := o.keypad
    random := o.random
    clock := o.clock }

/-- What reaches this machine from outside. -/
def outside (m : Machine) : Outside :=
  { delay := m.registers.delay
    sound := m.registers.sound
    keypad := m.keypad
    random := m.random
    clock := m.clock }

variable (m : Machine) (o : Outside)

/-- An effect that is the same under another outside. -/
theorem whole_under {effect effect' : Except Fault (Machine × Progress)}
    (same : effect' = effect.map fun done => (done.1.under o, done.2)) :
    (m.under o).whole effect' = ((m.whole effect).1.under o, (m.whole effect).2) := by
  subst same
  cases effect <;> rfl

theorem changeRegisters_under {registers registers' : Except Fault RegisterFile}
    (same : registers' = registers.map (·.under o)) :
    (m.under o).changeRegisters registers' =
      ((m.changeRegisters registers).1.under o, (m.changeRegisters registers).2) := by
  subst same
  cases registers <;> rfl

theorem finishTransfer_under (x : UInt8) (outcome : Except Fault Unit) :
    (m.under o).finishTransfer x outcome =
      ((m.finishTransfer x outcome).1.under o, (m.finishTransfer x outcome).2) := by
  cases outcome with
  | error => rfl
  | ok done => exact m.changeRegisters_under o (m.registers.setIndex_under o _)

theorem drawSprite_under (x y rows : UInt8) :
    (m.under o).drawSprite x y rows =
      (m.drawSprite x y rows).map fun drawn => (drawn.1, drawn.2.under o) := by
  have read (x : Nat) : (m.under o).registers.read x = m.registers.read x := rfl
  have slice : (m.under o).memory.slice (m.under o).index rows.toNat =
    m.memory.slice m.index rows.toNat := rfl
  unfold drawSprite
  rw [read, read, slice]
  cases m.registers.read x.toNat with
  | error => rfl
  | ok across =>
    cases m.registers.read y.toNat with
    | error => rfl
    | ok down =>
      cases m.memory.slice m.index rows.toNat <;> rfl

theorem memoryToRegisters_under (x : UInt8) :
    (m.under o).memoryToRegisters x =
      ((m.memoryToRegisters x).1.under o, (m.memoryToRegisters x).2) := by
  refine sweep_hom (fun r : RegisterFile => r.under o) (fun r i => ?_) m.registers (transferred x)
  change (m.memory.read (m.index + i) >>= fun byte => (r.under o).write i byte) = _
  cases m.memory.read (m.index + i) with
  | error => rfl
  | ok byte => exact r.write_under o i byte

/-- Under every outside that it cannot tell apart an instruction has the same effect. -/
theorem execute_under {i : Instruction}
    (heard : i.Listens → ¬ i.Senses ∧ o.random = m.random) :
    ∃ o', (m.under o).execute i = ((m.execute i).1.under o', (m.execute i).2) := by
  have read (x : Nat) : (m.under o).registers.read x = m.registers.read x := rfl
  cases i with
  | readDelay | awaitKey => exact absurd trivial (heard trivial).1
  | random x mask =>
    -- Another byte that is drawn is lost in the mask, but the generator moves on.
    have drawn : o.random.next.1 &&& mask = m.random.next.1 &&& mask := by
      by_cases none : mask = 0
      · simp [none]
      · rw [(heard none).2]
    have other : (m.under o).random = o.random := rfl
    simp only [execute, other, drawn]
    exact ⟨_, changeRegisters_under { m with random := m.random.next.2 }
      { o with random := o.random.next.2 } (m.registers.write_under o x.toNat _)⟩
  | setDelay x =>
    simp only [execute, read]
    cases m.registers.read x.toNat with
    | error => exact ⟨o, rfl⟩
    | ok byte => exact ⟨{ o with delay := byte }, rfl⟩
  | setSound x =>
    simp only [execute, read]
    cases m.registers.read x.toNat with
    | error => exact ⟨o, rfl⟩
    | ok byte => exact ⟨{ o with sound := byte }, rfl⟩
  | system | clear | jump => exact ⟨o, rfl⟩
  | ret =>
    refine ⟨o, m.whole_under o ?_⟩
    change (m.stack.pop >>= _) = _
    cases m.stack.pop <;> rfl
  | call target =>
    refine ⟨o, m.whole_under o ?_⟩
    change (m.stack.push (m.pc + 2) >>= _) = _
    cases m.stack.push (m.pc + 2) <;> rfl
  | skip test expected =>
    refine ⟨o, m.whole_under o ?_⟩
    cases test with
    | key => exact absurd trivial (heard trivial).1
    | byte x value =>
      change (m.answer (.byte x value) >>= _) = _
      cases m.answer (.byte x value) <;> rfl
    | register x y =>
      change (m.answer (.register x y) >>= _) = _
      cases m.answer (.register x y) <;> rfl
  | jumpOffset base =>
    simp only [execute, read]
    cases m.registers.read 0 <;> exact ⟨o, rfl⟩
  | draw x y rows =>
    refine ⟨o, m.whole_under o ?_⟩
    rw [drawSprite_under]
    cases m.drawSprite x y rows <;> rfl
  | set x value => exact ⟨o, m.changeRegisters_under o (m.registers.write_under o _ _)⟩
  | arithmetic op x y => exact ⟨o, m.changeRegisters_under o (m.registers.arithmetic_under o _ _ _)⟩
  | setIndex address => exact ⟨o, m.changeRegisters_under o (m.registers.setIndex_under o _)⟩
  | increase x value =>
    refine ⟨o, m.changeRegisters_under o ?_⟩
    rw [read]
    cases m.registers.read x.toNat with
    | error => rfl
    | ok byte => exact m.registers.write_under o _ _
  | increaseIndex x | pointGlyph x =>
    refine ⟨o, m.changeRegisters_under o ?_⟩
    rw [read]
    cases m.registers.read x.toNat with
    | error => rfl
    | ok byte => exact m.registers.setIndex_under o _
  | storeDecimal x =>
    refine ⟨o, ?_⟩
    change (m.under o).storeDecimal x = ((m.storeDecimal x).1.under o, (m.storeDecimal x).2)
    unfold storeDecimal
    rw [read]
    cases m.registers.read x.toNat <;> rfl
  | storeRegisters x => exact ⟨o, finishTransfer_under { m with memory := _ } o x _⟩
  | loadRegisters x =>
    refine ⟨o, ?_⟩
    change (m.under o).loadRegisters x = ((m.loadRegisters x).1.under o, (m.loadRegisters x).2)
    unfold loadRegisters
    rw [memoryToRegisters_under]
    exact finishTransfer_under (m.withRegisters _) o x _

theorem moveTo_under (address : Nat) :
    (m.under o).moveTo address = (m.moveTo address).map (·.under o) := by
  change ((m.registers.under o).setPc address >>= _) = _
  rw [RegisterFile.setPc_under]
  unfold moveTo
  cases m.registers.setPc address <;> rfl

theorem proceed_under (progress : Progress) :
    (m.under o).proceed progress = (m.proceed progress).map (·.under o) := by
  cases progress with
  | next => exact m.moveTo_under o (m.pc + 2)
  | skip => exact m.moveTo_under o (m.pc + 4)
  | jump target => exact m.moveTo_under o target
  | hold => rfl

theorem settle_under : (m.under o).settle = (m.settle).map (·.under o) := by
  change (m.inProgram >>= _) = _
  unfold settle
  cases m.inProgram with
  | error => rfl
  | ok inside => cases inside <;> rfl

/-- The end of a step is the same under every outside. -/
theorem conclude_under (progress : Progress) (cycle : Cycle) :
    (m.under o).conclude progress cycle =
      ((m.conclude progress cycle).1.under o, (m.conclude progress cycle).2) := by
  unfold conclude
  rw [proceed_under]
  cases m.proceed progress with
  | error => rfl
  | ok moved =>
    change (if moved.mode = .running then _ else _) = _
    rw [settle_under]
    by_cases running : moved.mode = .running
    · simp only [running, if_true]
      cases moved.settle <;> rfl
    · simp only [running, if_false]

theorem guard_under (done : Machine × Except Fault Cycle) :
    guard (done.1.under o, done.2) = ((guard done).1.under o, (guard done).2) := by
  obtain ⟨after, _ | _⟩ := done <;> rfl

theorem instructionCycle_under
    (heard : ∀ i, m.fetch = .ok i → i.Listens → ¬ i.Senses ∧ o.random = m.random) :
    ∃ o', (m.under o).instructionCycle =
      (m.instructionCycle.1.under o', m.instructionCycle.2) := by
  have same : (m.under o).fetch = m.fetch := rfl
  cases fetch : m.fetch with
  | error fault => exact ⟨o, by simp only [instructionCycle, same, fetch]⟩
  | ok i =>
    obtain ⟨o', execute⟩ := m.execute_under o (heard i fetch)
    refine ⟨o', ?_⟩
    rw [instructionCycle_of_fetch fetch, instructionCycle_of_fetch (same.trans fetch), execute]
    cases (m.execute i).2 with
    | error => rfl
    | ok progress => exact conclude_under _ o' progress _

/-- A sound machine executes an instruction that listens whenever it comes to one. -/
theorem Sound.executed_of_listens {m : Machine} (sound : m.Sound) (mode : m.mode = .running)
    (inside : m.InProgram) {i : Instruction} (fetch : m.fetch = .ok i) (listens : i.Listens) :
    m.step.2 = .ok (.executed i) := by
  rw [step_answer_of_fetch sound mode inside fetch]
  cases execute : (m.execute i).2 with
  | ok => rfl
  | error fault =>
    -- What listens is never refused.
    have refuses := (execute_error_iff (isEncodable_of_fetch fetch) sound.calls).1 execute
    cases i with
    | readDelay | awaitKey | skip | random => cases refuses
    | _ => cases listens

/-- Every outside that has the key that is waited for lets it be picked up. -/
theorem keyCycle_under (waits : o.keypad.wait = m.keypad.wait) :
    ∃ o', (m.under o).keyCycle = (m.keyCycle.1.under o', m.keyCycle.2) := by
  have other : (m.under o).keypad.wait = m.keypad.wait := waits
  cases wait : m.keypad.wait with
  | idle | waiting =>
    rw [wait] at other
    exact ⟨o, by simp only [keyCycle, Keypad.take, other, wait]⟩
  | resolved register key =>
    rw [wait] at other
    let o' : Outside := { o with keypad := o.keypad.cancel }
    have receive : ({ m.under o with keypad := (m.under o).keypad.cancel } : Machine).receiveKey
        register key =
        (({ m with keypad := m.keypad.cancel } : Machine).receiveKey register key).map
          (·.under o') := by
      change ((m.registers.under o).writeNat register.toNat key.toNat >>= _) = _
      rw [RegisterFile.writeNat_under]
      unfold receiveKey
      dsimp only
      cases m.registers.writeNat register.toNat key.toNat <;> rfl
    refine ⟨o', ?_⟩
    simp only [keyCycle, Keypad.take, other, wait, receive]
    cases ({ m with keypad := m.keypad.cancel } : Machine).receiveKey register key with
    | error => rfl
    | ok received => exact received.conclude_under o' .next _

/-- A step that cannot tell an outside from its own is the same under it. -/
theorem step_under {m : Machine} {o : Outside} (sound : m.Sound)
    (waits : m.mode = .awaitingKey → o.keypad.wait = m.keypad.wait)
    (heard : ∀ i, m.step.2 = .ok (.executed i) → i.Listens →
      ¬ i.Senses ∧ o.random = m.random) :
    ∃ o', (m.under o).step = (m.step.1.under o', m.step.2) := by
  have same : (m.under o).mode = m.mode := rfl
  cases mode : m.mode with
  | idle | paused | halted => exact ⟨o, by simp only [step, same, mode]⟩
  | awaitingKey =>
    obtain ⟨o', cycle⟩ := m.keyCycle_under o (waits mode)
    exact ⟨o', by simp only [step, same, mode, cycle, guard_under]⟩
  | running =>
    have cycles : m.step = guard m.runCycle := by simp only [step, mode]
    have cycles' : (m.under o).step = guard (m.under o).runCycle := by simp only [step, same, mode]
    have stands : (m.under o).inProgram = m.inProgram := rfl
    have ready : ∃ o', (m.under o).runCycle = (m.runCycle.1.under o', m.runCycle.2) := by
      unfold runCycle
      rw [stands, inProgram_of_loaded (sound.loaded (by simp [mode]))]
      by_cases inside : m.InProgram
      · simp only [inside, decide_true]
        exact m.instructionCycle_under o fun i fetch listens =>
          heard i (sound.executed_of_listens mode inside fetch listens) listens
      · simp only [inside, decide_false]
        exact ⟨o, rfl⟩
    obtain ⟨o', ready⟩ := ready
    exact ⟨o', by rw [cycles', ready, guard_under, ← cycles]⟩

end Machine

end Chip8
