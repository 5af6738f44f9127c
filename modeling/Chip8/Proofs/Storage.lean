import Chip8.Proofs.Pausing
import Chip8.Proofs.Storing

/-!
# Nothing is out of bounds

What an operation leaves of a stored machine, if numbers are summed as they are, is what it leaves
of the running machine that is stored there (`Machine.leaves_effect`), and so it is for a run of
operations (`Machine.operated_stored`). So the bounds that the types of the running machine ensure
are no more than what the stored machine keeps by its own checks, however numbers are summed
(`StoredMachine.never_out_of_bounds`).
-/

namespace Chip8
set_option autoImplicit false

open Change

namespace Machine

variable (m : Machine)

/-! ## Control -/

theorem inProgram_stored : m.stored.inProgram = m.inProgram := rfl

theorem fetch_stored : m.stored.fetch = m.fetch := rfl

theorem withMode_stored (mode : Mode) : (m.withMode mode).stored = { m.stored with mode } := rfl

theorem settle_stored : StoredMachine.settle m.stored = renewed stored m m.settle := by
  rw [StoredMachine.settle, get_bind, ofExcept_bind, inProgram_stored, settle]
  cases m.inProgram with
  | error fault => rfl
  | ok inside => cases inside <;> rfl

theorem proceed_stored (progress : Progress) :
    StoredMachine.proceed (· + ·) progress m.stored = renewed stored m (m.proceed progress) := by
  rw [StoredMachine.proceed, get_bind, stored_registers, stored_pc]
  cases progress with
  | next | skip | jump => exact m.setPc_stored _
  | hold => rfl

theorem conclude_stored (progress : Progress) (cycle : Cycle) :
    StoredMachine.conclude (· + ·) progress cycle m.stored =
      ended stored (m.conclude progress cycle) := by
  rw [StoredMachine.conclude, bind_run, proceed_stored, conclude]
  cases m.proceed progress with
  | error fault => rfl
  | ok moved =>
    dsimp only [renewed]
    rw [get_bind, stored_mode]
    split
    · rw [bind_run, settle_stored]
      cases moved.settle <;> rfl
    · rfl

theorem instructionCycle_stored :
    StoredMachine.instructionCycle (· + ·) m.stored = ended stored m.instructionCycle := by
  rw [StoredMachine.instructionCycle, get_bind, ofExcept_bind, fetch_stored, instructionCycle]
  cases m.fetch with
  | error fault => rfl
  | ok i =>
    dsimp only
    rw [bind_run, execute_stored]
    obtain ⟨after, outcome⟩ := m.execute i
    cases outcome with
    | error fault => rfl
    | ok progress => exact after.conclude_stored progress _

theorem runCycle_stored (running : m.mode = .running) :
    StoredMachine.runCycle (· + ·) m.stored = ended stored m.runCycle := by
  rw [StoredMachine.runCycle, bind_run, settle_stored, settle, runCycle]
  cases m.inProgram with
  | error fault => rfl
  | ok inside =>
    cases inside with
    | false => rfl
    | true =>
      dsimp only [ok_bind, pure_eq_ok, renewed]
      rw [get_bind, if_pos rfl, stored_mode, running]
      exact m.instructionCycle_stored

theorem guarded_stored {change : Change StoredMachine Cycle} {done : Machine × Except Fault Cycle}
    (same : change m.stored = ended stored done) :
    StoredMachine.guarded change m.stored = ended stored (guard done) := by
  rw [StoredMachine.guarded, onRefusal, same]
  obtain ⟨after, outcome⟩ := done
  cases outcome <;> rfl

theorem goOn_stored (cycle : Cycle) : StoredMachine.goOn (· + ·) cycle m.stored =
    match m.moveTo (m.pc + 2) with
    | .error fault => .error fault m.stored
    | .ok moved =>
      ended stored <| match (moved.withMode .running).settle with
        | .error fault => (moved.withMode .running, .error fault)
        | .ok settled => (settled, .ok cycle) := by
  rw [StoredMachine.goOn, bind_run, proceed_stored, proceed]
  cases m.moveTo (m.pc + 2) with
  | error fault => rfl
  | ok moved =>
    dsimp only [renewed]
    rw [modify_bind, bind_run, ← withMode_stored, settle_stored]
    cases (moved.withMode .running).settle <;> rfl

/-- The running machine runs again before its program counter moves, the stored one after. If the
program counter cannot move they still end the same, as both are halted by the fault. -/
theorem guarded_goOn_stored (cycle : Cycle) :
    StoredMachine.guarded (StoredMachine.goOn (· + ·) cycle) m.stored =
      ended stored (guard ((m.withMode .running).conclude .next cycle)) := by
  have moves : (m.withMode .running).proceed .next =
      (m.moveTo (m.pc + 2)).map (·.withMode .running) := by
    rw [proceed, moveTo, moveTo]
    show (m.registers.setPc (m.pc + 2) >>= fun _ => _) = _
    cases m.registers.setPc (m.pc + 2) <;> rfl
  rw [StoredMachine.guarded, onRefusal, goOn_stored, conclude, moves]
  cases m.moveTo (m.pc + 2) with
  | error fault => rfl
  | ok moved =>
    have running : (moved.withMode .running).mode = .running := rfl
    dsimp only [Except.map]
    rw [if_pos running]
    cases (moved.withMode .running).settle <;> rfl

theorem take_stored :
    StoredMachine.onKeypad (.whole fun keypad => .ok keypad.take) m.stored =
      .ok m.keypad.take.1 { m with keypad := m.keypad.take.2 }.stored := rfl

theorem guarded_keyCycle_stored :
    StoredMachine.guarded (StoredMachine.keyCycle (· + ·)) m.stored =
      ended stored (guard m.keyCycle) := by
  have untaken : m.keypad.take.1 = none → m.keypad.take.2 = m.keypad := by
    unfold Keypad.take
    split <;> simp
  rw [StoredMachine.guarded, onRefusal, StoredMachine.keyCycle, bind_run, take_stored, keyCycle]
  generalize m.keypad.take = taken at untaken ⊢
  obtain ⟨arrived, keypad⟩ := taken
  cases arrived with
  | none =>
    obtain rfl := untaken rfl
    rfl
  | some arrived =>
    obtain ⟨register, key⟩ := arrived
    dsimp only
    rw [bind_run, putV_stored, receiveKey]
    dsimp only
    cases m.registers.writeNat register.toNat key.toNat with
    | error fault => rfl
    | ok written =>
      have rest := guarded_goOn_stored { m with registers := written, keypad }
        (.keyReceived register key)
      rw [StoredMachine.guarded, onRefusal] at rest
      exact rest

theorem step_stored : StoredMachine.step (· + ·) m.stored = ended stored m.step := by
  rw [StoredMachine.step, get_bind, stored_mode, step]
  cases mode : m.mode with
  | idle | halted | paused => rfl
  | awaitingKey => exact m.guarded_keyCycle_stored
  | running => exact m.guarded_stored (m.runCycle_stored mode)

theorem pause_stored : m.stored.pause = m.pause.stored := by
  rw [StoredMachine.pause, stored_mode, pause]
  cases m.mode.isActive <;> rfl

theorem resume_stored : m.stored.resume = m.resume.stored := by
  rw [StoredMachine.resume, stored_mode, resume]
  split <;> rfl

theorem singleStep_stored :
    StoredMachine.singleStep (· + ·) m.stored = ended stored m.singleStep := by
  rw [StoredMachine.singleStep, get_bind, stored_mode, singleStep]
  split
  · -- whether the step fails or not, the machine it leaves is paused again
    show tryFinally (StoredMachine.step (· + ·)) (modify StoredMachine.pause)
      (m.withMode m.resumeTo).stored = _
    rw [tryFinally_modify_run, step_stored]
    obtain ⟨after, outcome⟩ := (m.withMode m.resumeTo).step
    cases outcome with
    | ok a | error fault =>
      dsimp only [ended]
      rw [pause_stored]
  · exact m.step_stored

theorem syncTimers_stored (now : Int) :
    m.stored.syncTimers now = (m.syncTimers now).stored := by
  rw [StoredMachine.syncTimers, stored_mode, syncTimers]
  cases m.mode.isActive with
  | false => rfl
  | true =>
    show (if 0 < (m.clock.sync now).1 then
      { m.stored with
        clock := (m.clock.sync now).2
        registers := m.registers.stored.decay (m.clock.sync now).1 }
      else { m.stored with clock := (m.clock.sync now).2 }) = _
    rw [RegisterFile.decay_stored]
    split
    · rfl
    · -- the running machine takes off no period where the stored one takes off nothing
      rename_i none
      have none : (m.clock.sync now).1 = 0 := by omega
      show _ = { m with
        registers := m.registers.decay (m.clock.sync now).1
        clock := (m.clock.sync now).2 }.stored
      rw [none, RegisterFile.decay_zero]
      rfl

theorem load_stored (program : List UInt8) :
    StoredMachine.load program m.stored = renewed stored m (m.load program) := by
  rw [StoredMachine.load, ofExcept_bind, load]
  cases Memory.load program with
  | error fault => rfl
  | ok memory =>
    -- the program counter is set among registers that were wiped before
    let wiped := { m with registers := .zero, memory, stack := .empty }
    have placed : StoredMachine.onRegisters (StoredRegisters.setPc programStart) wiped.stored =
        .ok () { wiped with registers := startRegisters }.stored :=
      wiped.setPc_stored programStart
    have same : { m.stored with registers := .zero, memory, stack := .empty } = wiped.stored :=
      congrArg (fun registers => { m.stored with registers, memory, stack := .empty })
        RegisterFile.zero_stored.symm
    dsimp only [ok_bind]
    rw [modify_bind, same, bind_run, placed]
    rfl

/-! ## Operations -/

theorem leaves_of_renewed {change : Change StoredMachine Unit} {outcome : Except Fault Machine}
    (same : change m.stored = renewed stored m outcome) :
    change.leaves m.stored = (m.attempt outcome).1.stored := by
  rw [leaves, same]
  cases outcome <;> rfl

theorem leaves_of_registers {change : Change StoredMachine Unit}
    {outcome : Except Fault RegisterFile}
    (same : change m.stored = renewed stored m (outcome.map m.withRegisters)) :
    change.leaves m.stored = (m.changeRegisters outcome).1.stored := by
  rw [m.leaves_of_renewed same]
  cases outcome <;> rfl

theorem leaves_loadImage (program : List UInt8) :
    (StoredMachine.effect (· + ·) (.loadImage program)).leaves m.stored =
      (m.attempt (m.loadImage program)).1.stored := by
  rw [leaves, StoredMachine.effect, ofExcept_bind, loadImage]
  cases Memory.load program <;> rfl

theorem leaves_perform (call : Call) :
    (StoredMachine.perform (· + ·) call).leaves m.stored = (m.perform call).1.stored := by
  cases call with
  | load program => exact m.leaves_of_renewed (m.load_stored program)
  | step => exact (leaves_discard _ _).trans (leaves_of_ended m.step_stored)
  | singleStep => exact (leaves_discard _ _).trans (leaves_of_ended m.singleStep_stored)
  | tick now =>
    have same : leaves (StoredMachine.perform (· + ·) (.tick now)) m.stored =
        leaves (discard (StoredMachine.step (· + ·))) (m.stored.syncTimers now) := rfl
    rw [same, m.syncTimers_stored, leaves_discard]
    exact leaves_of_ended (m.syncTimers now).step_stored
  | syncTimers now => exact m.syncTimers_stored now
  | pause => exact m.pause_stored
  | resume => exact m.resume_stored
  | press key => exact m.leaves_of_renewed (m.press_stored key)
  | release key => exact m.leaves_of_renewed (m.release_stored key)
  | takeFrame =>
    exact congrArg (fun frame => { m.stored with frame }) m.frame.take_stored

theorem leaves_effect (operation : Operation) :
    (StoredMachine.effect (· + ·) operation).leaves m.stored = (m.operate operation).stored := by
  cases operation with
  | call call => exact m.leaves_perform call
  | execute i => exact (leaves_discard _ _).trans (leaves_of_ended (m.execute_stored i))
  | setRegister x value => exact m.leaves_of_registers (m.putV_stored x value)
  | setFlag on =>
    rw [StoredMachine.effect, leaves, setFlag_stored]
    rfl
  | setIndex address => exact m.leaves_of_registers (m.setIndex_stored address)
  | setPc address =>
    exact m.leaves_of_registers (m.onRegisters_run (m.registers.setPc_stored address))
  | setDelay value => rfl
  | setSound value => rfl
  | decay periods =>
    exact congrArg (fun registers => { m.stored with registers }) (m.registers.decay_stored periods)
  | write address byte => exact m.leaves_of_renewed (m.writeByte_stored address byte)
  | loadImage program => exact m.leaves_loadImage program
  | push address => exact m.leaves_of_renewed (m.push_stored address)
  | pop =>
    rw [StoredMachine.effect, leaves_discard, leaves, pop_stored, operate]
    cases m.stack.pop <;> rfl
  | setPoint x y on =>
    exact congrArg (fun frame => { m.stored with frame }) (m.frame.set_stored x y on)
  | clear => rfl
  | paint x y sprite =>
    rw [StoredMachine.effect, leaves_discard, leaves, drawSprite_stored]
    rfl
  | key event => rfl

theorem operated_stored (operations : List Operation) :
    m.stored.operated (· + ·) operations = (m.operated operations).stored := by
  induction operations generalizing m with
  | nil => rfl
  | cons operation rest ih =>
    show StoredMachine.operated _ ((StoredMachine.effect _ operation).leaves m.stored) rest = _
    rw [leaves_effect, ih, operated_cons]

theorem fresh_stored (random : Random) : (fresh random).stored = .fresh random :=
  congrArg (fun registers => { (fresh random).stored with registers }) RegisterFile.zero_stored

end Machine

namespace StoredMachine

/-- Whatever operations are carried out on a new machine, in whatever order, with whatever
arguments, refused or not, and whatever the sums are that they go on with: all bounds hold, so V0
to VF and the timers are read as they are stored. If numbers are summed as they are, this machine
is the running one as it is stored. A number is refused by a cell just if it needs more bits than
the cell has, and the cell then holds what it held; no setter of a register that refuses a number
changes anything. -/
theorem never_out_of_bounds (sum : Nat → Nat → Nat) (random : Random)
    (operations : List Operation) :
    let m := (fresh random).operated sum operations
    (m.InBounds ∧
      (∀ x : Fin 16, (m.registers.read x).map UInt8.toNat = .ok (m.registers.v.get x)) ∧
      m.registers.delayByte.toNat = m.registers.delay ∧
      m.registers.soundByte.toNat = m.registers.sound) ∧
    (fresh random).operated (· + ·) operations =
      ((Machine.fresh random).operated operations).stored ∧
    (∀ bits value held, putCell bits value held =
      if value < 2 ^ bits then .ok () value else .error (.registerOverflow value bits) held) ∧
    (∀ x value, AllOrNothing (StoredRegisters.put x value)) ∧
    (∀ address, AllOrNothing (StoredRegisters.setIndex address)) ∧
    ∀ address, AllOrNothing (StoredRegisters.setPc address) := by
  intro m
  have inside : m.InBounds := inBounds_operated sum (inBounds_fresh random) operations
  refine ⟨⟨inside, fun x => ?_, ?_, ?_⟩, ?_, putCell_eq, StoredRegisters.allOrNothing_put,
    StoredRegisters.allOrNothing_setIndex, StoredRegisters.allOrNothing_setPc⟩
  · obtain ⟨byte, read, same⟩ := inside.registers.read x.isLt
    rw [read]
    exact congrArg Except.ok same
  · exact Nat.mod_eq_of_lt inside.registers.delay
  · exact Nat.mod_eq_of_lt inside.registers.sound
  · rw [← Machine.fresh_stored, Machine.operated_stored]

/-- Numbers that do not fit, a register and a key that do not exist, a sum too wide for I, timers
past their end, and more calls than the stack has room for. -/
def strain : List Operation :=
  [.setRegister 3 255, .setRegister 3 300, .setRegister 16 1, .setIndex 4096, .setIndex 4095,
    .execute (.increaseIndex 3), .setDelay 200, .setSound 7, .decay 100, .key (.arm 2),
    .call (.press 16), .call (.press 15)] ++ List.replicate 17 (.push 0xFFFF)

/-- The machine of which all this was asked, where sums keep 16 bits. -/
theorem never_out_of_bounds_strain :
    let m := (fresh (.ofSeed 0)).operated (fun a b => (a + b) % 65536) strain
    m.InBounds ∧ m.registers.v[3] = 255 ∧ m.registers.index = 4095 ∧ m.registers.delay = 100 ∧
      m.registers.sound = 0 ∧ m.stack.size = 16 ∧ m.keypad.last = some 15 := by
  refine ⟨(never_out_of_bounds (fun a b => (a + b) % 65536) (.ofSeed 0) strain).1.1, ?_⟩
  decide +kernel

end StoredMachine

end Chip8
