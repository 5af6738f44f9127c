import Chip8.Machine.Storage
import Chip8.Proofs.Footprint
import Chip8.Proofs.Widths

/-!
# Instructions on stored parts

A running machine has registers and a frame that cannot hold anything out of bounds; in a stored
machine each number has a cell that could. If numbers are summed as they are, an instruction does
the same to both, and where it fails it has done as much (`Machine.execute_stored`). Each part of
the machine has a lemma that says so, and the instructions are put together from these.
-/

namespace Chip8
set_option autoImplicit false

open Change

/-! ## Registers and frame -/

/-- A cell takes a number just if a register of its width does. -/
theorem putCell_run (bits value held : Nat) : putCell bits value held =
    match Register.ofNat bits value with
    | .ok register => .ok () register.value
    | .error fault => .error fault held := by
  rw [putCell_eq, ← Register.count_eq_two_pow]
  by_cases fits : value < Register.count bits
  · rw [if_pos fits, Register.ofNat, dif_pos fits]
  · rw [if_neg fits, Register.ofNat, dif_neg fits]

namespace RegisterFile

variable (r : RegisterFile)

theorem zero_stored : zero.stored = .zero := by
  simp [stored, zero, StoredRegisters.zero, Register.zero]

theorem read_stored (x : Nat) : r.stored.read x = r.read x := by
  unfold StoredRegisters.read read
  split
  · rename_i known
    simp [stored]
  · rfl

theorem delayByte_stored : r.stored.delayByte = r.delay := UInt8.ofNat_toNat

theorem soundByte_stored : r.stored.soundByte = r.sound := UInt8.ofNat_toNat

theorem put_stored (x value : Nat) :
    StoredRegisters.put x value r.stored = renewed stored r (r.writeNat x value) := by
  unfold StoredRegisters.put writeNat
  split
  · rename_i known
    simp only [onPart, putCell_run]
    cases fits : Register.ofNat 8 value with
    | error fault =>
      have same : r.stored.v.set x r.stored.v[x] = r.stored.v := Vector.set_getElem_self known
      simp only [same]
      rfl
    | ok byte =>
      have put : r.stored.v.set x byte.value = (r.v.set x (.ofNat byte.value)).map UInt8.toNat := by
        have small : (UInt8.ofNat byte.value).toNat = byte.value := Nat.mod_eq_of_lt byte.fits
        rw [Vector.map_set, small]
        rfl
      simp only [put]
      rfl
  · rfl

theorem setIndex_stored (address : Nat) :
    StoredRegisters.setIndex address r.stored = renewed stored r (r.setIndex address) := by
  simp only [StoredRegisters.setIndex, onPart, putCell_run, setIndex]
  cases Register.ofNat 12 address <;> rfl

theorem setPc_stored (address : Nat) :
    StoredRegisters.setPc address r.stored = renewed stored r (r.setPc address) := by
  simp only [StoredRegisters.setPc, onPart, putCell_run, setPc]
  cases Register.ofNat 16 address <;> rfl

theorem setFlag_stored (on : Bool) :
    StoredRegisters.setFlag on r.stored = .ok () (r.setFlag on).stored := by
  rw [StoredRegisters.setFlag, put_stored]
  cases on <;> rfl

theorem decay_stored (periods : Nat) : r.stored.decay periods = (r.decay periods).stored := by
  have delay : r.delay.toNat - min periods 255 = r.delay.toNat - periods := by
    have := r.delay.toNat_lt
    omega
  have sound : r.sound.toNat - min periods 255 = r.sound.toNat - periods := by
    have := r.sound.toNat_lt
    omega
  show ({ r.stored with
    delay := (UInt8.ofNat (r.stored.delayByte.toNat - min periods 255)).toNat
    sound := (UInt8.ofNat (r.stored.soundByte.toNat - min periods 255)).toNat } :
      StoredRegisters) = _
  rw [delayByte_stored, soundByte_stored, delay, sound]
  rfl

end RegisterFile

namespace Frame

variable (f : Frame)

theorem get_stored (x y : Nat) : f.stored.get x y = f.get x y := by
  have inside : place x y < f.points.toArray.size := by
    rw [f.points.size_toArray]
    exact place_lt x y
  exact (Array.getElem_eq_getD (h := inside) false).symm

theorem set_stored (x y : Nat) (on : Bool) : f.stored.set x y on = (f.set x y on).stored := by
  unfold StoredFrame.set set
  rw [get_stored]
  split
  · rfl
  · have inside := place_lt x y
    simp [stored, Array.setIfInBounds, inside]

theorem take_stored : f.stored.take.2 = f.take.2.stored := by
  unfold StoredFrame.take take
  show (if f.stale then _ else _ : Option StoredFrame × StoredFrame).2 = _
  split <;> rfl

theorem invertPoints_stored (points : List (Nat × Nat)) : invertPoints f.stored points =
    ((invertPoints f points).1, (invertPoints f points).2.stored) := by
  induction points generalizing f with
  | nil => rfl
  | cons point rest ih =>
    have first : invertPoint (false, f.stored) point =
        ((invertPoint (false, f) point).1, (invertPoint (false, f) point).2.stored) := by
      show (false || f.stored.get _ _, f.stored.set _ _ _) = (false || f.get _ _, _)
      rw [get_stored, set_stored]
      rfl
    rw [Chip8.invertPoints_cons, Chip8.invertPoints_cons, first, ih]

end Frame

/-! ## Parts of the machine -/

namespace Machine

variable {α : Type} (m : Machine)

theorem onRegisters_run {change : Change StoredRegisters Unit} {outcome : Except Fault RegisterFile}
    (same : change m.registers.stored = renewed RegisterFile.stored m.registers outcome) :
    StoredMachine.onRegisters change m.stored =
      renewed stored m (outcome.map m.withRegisters) := by
  rw [StoredMachine.onRegisters, onPart, stored_registers, same]
  cases outcome <;> rfl

theorem readV_bind (x : Nat) (next : UInt8 → Change StoredMachine α) :
    (StoredMachine.readV x >>= next) m.stored =
      match m.registers.read x with
      | .ok byte => next byte m.stored
      | .error fault => .error fault m.stored := by
  rw [bind_run, StoredMachine.readV, get_bind, stored_registers, RegisterFile.read_stored]
  cases m.registers.read x <;> rfl

theorem putV_stored (x value : Nat) : StoredMachine.putV x value m.stored =
    renewed stored m ((m.registers.writeNat x value).map m.withRegisters) :=
  m.onRegisters_run (m.registers.put_stored x value)

theorem setIndex_stored (address : Nat) :
    StoredMachine.onRegisters (StoredRegisters.setIndex address) m.stored =
      renewed stored m ((m.registers.setIndex address).map m.withRegisters) :=
  m.onRegisters_run (m.registers.setIndex_stored address)

theorem setPc_stored (address : Nat) :
    StoredMachine.onRegisters (StoredRegisters.setPc address) m.stored =
      renewed stored m (m.moveTo address) := by
  rw [m.onRegisters_run (m.registers.setPc_stored address), moveTo]
  cases m.registers.setPc address <;> rfl

theorem setFlag_stored (on : Bool) :
    StoredMachine.onRegisters (StoredRegisters.setFlag on) m.stored =
      .ok () (m.withRegisters (m.registers.setFlag on)).stored := by
  have same : StoredRegisters.setFlag on m.registers.stored =
      renewed RegisterFile.stored m.registers (.ok (m.registers.setFlag on)) :=
    m.registers.setFlag_stored on
  exact m.onRegisters_run same

theorem writeByte_stored (address : Nat) (byte : UInt8) :
    StoredMachine.writeByte address byte m.stored =
      renewed stored m ((m.memory.write address byte).map fun memory => { m with memory }) := by
  rw [StoredMachine.writeByte, StoredMachine.onMemory, onPart, renew, Change.whole, stored_memory]
  cases m.memory.write address byte <;> rfl

theorem push_stored (address : Nat) : StoredMachine.push address m.stored =
    renewed stored m ((m.stack.push address).map fun stack => { m with stack }) := by
  rw [StoredMachine.push, StoredMachine.onStack, onPart, renew, Change.whole, stored_stack]
  cases m.stack.push address <;> rfl

theorem pop_stored : StoredMachine.pop m.stored =
    match m.stack.pop with
    | .ok (address, stack) => .ok address { m with stack }.stored
    | .error fault => .error fault m.stored := by
  rw [StoredMachine.pop, StoredMachine.onStack, onPart, Change.whole, stored_stack]
  cases m.stack.pop <;> rfl

theorem press_stored (key : UInt8) :
    StoredMachine.press key m.stored = renewed stored m (m.press key) := by
  rw [StoredMachine.press, StoredMachine.onKeypad, onPart, renew, Change.whole, stored_keypad,
    press]
  cases m.keypad.press key <;> rfl

theorem release_stored (key : UInt8) :
    StoredMachine.release key m.stored = renewed stored m (m.release key) := by
  rw [StoredMachine.release, StoredMachine.onKeypad, onPart, renew, Change.whole, stored_keypad,
    release]
  cases m.keypad.release key <;> rfl

theorem drawSprite_stored (x y : UInt8) (sprite : List UInt8) :
    StoredMachine.drawSprite x y sprite m.stored =
      .ok (paint m.frame x y sprite).1 { m with frame := (paint m.frame x y sprite).2 }.stored := by
  have drawn := m.frame.invertPoints_stored (spritePoints x y sprite)
  show EStateM.Result.ok (paint m.frame.stored x y sprite).1
    { m.stored with frame := (paint m.frame.stored x y sprite).2 } = _
  rw [paint, drawn]
  rfl

/-! ## Instructions -/

theorem putV_byte (x : Nat) (byte : UInt8) : StoredMachine.putV x byte.toNat m.stored =
    renewed stored m ((m.registers.write x byte).map m.withRegisters) := by
  rw [putV_stored, RegisterFile.writeNat_toNat]

/-- A change of the registers, after which the next instruction follows. -/
theorem next_run {change : Change StoredMachine Unit} {outcome : Except Fault RegisterFile}
    (same : change m.stored = renewed stored m (outcome.map m.withRegisters)) :
    (change >>= fun _ => pure Progress.next) m.stored =
      ended stored (m.changeRegisters outcome) := by
  rw [bind_run, same]
  cases outcome <;> rfl

theorem readV_renewed {x : Nat} {next : UInt8 → Change StoredMachine Unit}
    {written : UInt8 → Except Fault RegisterFile}
    (same : ∀ byte, next byte m.stored = renewed stored m ((written byte).map m.withRegisters)) :
    (StoredMachine.readV x >>= next) m.stored =
      renewed stored m ((m.registers.read x >>= written).map m.withRegisters) := by
  rw [readV_bind]
  cases m.registers.read x with
  | error fault => rfl
  | ok byte => exact same byte

theorem readV_next {x : Nat} {next : UInt8 → Change StoredMachine Progress}
    {written : UInt8 → Except Fault RegisterFile}
    (same : ∀ byte, next byte m.stored = ended stored (m.changeRegisters (written byte))) :
    (StoredMachine.readV x >>= next) m.stored =
      ended stored (m.changeRegisters (m.registers.read x >>= written)) := by
  rw [readV_bind]
  cases m.registers.read x with
  | error fault => rfl
  | ok byte => exact same byte

theorem putReporting_stored (x : Nat) (byte : UInt8) (flag : Option Bool) :
    StoredMachine.putReporting x byte flag m.stored = renewed stored m
      ((do return (← m.registers.write x byte).report flag).map m.withRegisters) := by
  rw [StoredMachine.putReporting, bind_run, putV_byte]
  cases m.registers.write x byte with
  | error fault => rfl
  | ok written =>
    cases flag with
    | none => rfl
    | some on => exact (m.withRegisters written).setFlag_stored on

theorem arithmetic_stored (op : Arithmetic) (x y : Nat) :
    StoredMachine.arithmetic op x y m.stored =
      renewed stored m ((m.registers.arithmetic op x y).map m.withRegisters) := by
  have second (a : UInt8) := m.readV_renewed (x := y) fun b =>
    m.putReporting_stored x (op.result a b) (op.flag? a b)
  rw [StoredMachine.arithmetic, RegisterFile.arithmetic]
  cases op.readsTarget with
  | false => exact second 0
  | true => exact m.readV_renewed second

theorem answer_stored (test : Test) :
    StoredMachine.answer test m.stored = ended stored (m, m.answer test) := by
  cases test with
  | byte x value =>
    rw [StoredMachine.answer, readV_bind, answer]
    cases m.registers.read x.toNat <;> rfl
  | register x y =>
    rw [StoredMachine.answer, readV_bind, answer]
    cases m.registers.read x.toNat with
    | error fault => rfl
    | ok a =>
      rw [ok_bind]
      dsimp only
      rw [readV_bind]
      cases m.registers.read y.toNat <;> rfl
  | key x =>
    rw [StoredMachine.answer, readV_bind, answer]
    cases m.registers.read x.toNat with
    | error fault => rfl
    | ok byte => 
      rw [ok_bind]
      show (ofExcept (m.keypad.isHeld (byte &&& 0xF)) : Change StoredMachine Bool) m.stored = _
      cases m.keypad.isHeld (byte &&& 0xF) <;> rfl

theorem draw_stored (x y rows : UInt8) : StoredMachine.draw x y rows m.stored =
    renewed stored m ((m.drawSprite x y rows).map fun (collision, drawn) =>
      drawn.withRegisters (drawn.registers.setFlag collision)) := by
  rw [StoredMachine.draw, readV_bind, drawSprite]
  cases m.registers.read x.toNat with
  | error fault => rfl
  | ok across =>
    dsimp only [ok_bind]
    rw [readV_bind]
    cases m.registers.read y.toNat with
    | error fault => rfl
    | ok down =>
      simp only [get_bind, ofExcept_bind, stored_memory, stored_registers, stored_index, ok_bind]
      cases m.memory.slice m.index rows.toNat with
      | error fault => rfl
      | ok sprite =>
        dsimp only [ok_bind]
        rw [bind_run, drawSprite_stored]
        exact setFlag_stored _ _

theorem writeDigits_stored (byte : UInt8) :
    StoredMachine.writeDigits (· + ·) m.index byte m.stored =
      ended (fun memory => { m with memory }.stored) (m.digitsToMemory byte) := by
  refine forM_run (f := fun memory => { m with memory }.stored) ?_ _ m.memory
  rintro memory ⟨digit, i⟩
  dsimp only
  rw [writeByte_stored]
  cases memory.write (m.index + i) digit <;> rfl

theorem saveRegisters_stored (x : UInt8) :
    StoredMachine.saveRegisters (· + ·) m.index x m.stored =
      ended (fun memory => { m with memory }.stored) (m.registersToMemory x) := by
  refine forM_run (f := fun memory => { m with memory }.stored) (fun memory r => ?_) _ m.memory
  rw [readV_bind]
  dsimp only
  cases m.registers.read r with
  | error fault => rfl
  | ok byte =>
    dsimp only [ok_bind]
    rw [writeByte_stored]
    cases memory.write (m.index + r) byte <;> rfl

theorem restoreRegisters_stored (x : UInt8) :
    StoredMachine.restoreRegisters (· + ·) m.index x m.stored =
      ended (fun registers => (m.withRegisters registers).stored) (m.memoryToRegisters x) := by
  refine forM_run (f := fun registers => (m.withRegisters registers).stored)
    (fun registers r => ?_) _ m.registers
  have memory : (m.withRegisters registers).memory = m.memory := rfl
  rw [get_bind, ofExcept_bind, stored_memory, memory]
  dsimp only
  cases m.memory.read (m.index + r) with
  | error fault => rfl
  | ok byte =>
    dsimp only [ok_bind]
    rw [putV_byte]
    show renewed stored (m.withRegisters registers) ((registers.write r byte).map _) = _
    cases registers.write r byte <;> rfl

theorem finishTransfer_stored (x : UInt8) :
    (StoredMachine.finishTransfer (· + ·) m.index x >>= fun _ => pure Progress.next) m.stored =
      ended stored (m.finishTransfer x (.ok ())) :=
  m.next_run (m.setIndex_stored _)

/-- An instruction does the same to both machines, and if it fails it has done as much. -/
theorem execute_stored (i : Instruction) :
    StoredMachine.execute (· + ·) i m.stored = ended stored (m.execute i) := by
  cases i with
  | system address => rfl
  | clear => rfl
  | ret =>
    rw [StoredMachine.execute, bind_run, pop_stored, execute]
    cases m.stack.pop <;> rfl
  | jump target => rfl
  | call target =>
    rw [StoredMachine.execute, get_bind, bind_run, push_stored, execute]
    dsimp only [stored_registers, stored_pc]
    cases m.stack.push (m.pc + 2) <;> rfl
  | skip test expected =>
    rw [StoredMachine.execute, bind_run, answer_stored, execute]
    cases m.answer test <;> rfl
  | set x value => exact m.next_run (m.putV_byte _ _)
  | increase x value => exact m.readV_next fun byte => m.next_run (m.putV_byte _ _)
  | arithmetic op x y => exact m.next_run (m.arithmetic_stored op _ _)
  | setIndex address => exact m.next_run (m.setIndex_stored _)
  | jumpOffset base =>
    rw [StoredMachine.execute, readV_bind, execute]
    cases m.registers.read 0 <;> rfl
  | random x mask =>
    rw [StoredMachine.execute, get_bind]
    exact next_run { m with random := m.random.next.2 } (putV_byte _ _ _)
  | draw x y rows =>
    rw [StoredMachine.execute, bind_run, draw_stored, execute, draw]
    cases m.drawSprite x y rows <;> rfl
  | readDelay x =>
    rw [StoredMachine.execute, get_bind, stored_registers, RegisterFile.delayByte_stored]
    exact m.next_run (m.putV_byte _ _)
  | awaitKey x =>
    rw [StoredMachine.execute, readV_bind, execute]
    cases m.registers.read x.toNat <;> rfl
  | setDelay x => exact m.readV_next fun byte => rfl
  | setSound x => exact m.readV_next fun byte => rfl
  | increaseIndex x =>
    rw [StoredMachine.execute, get_bind, stored_registers, stored_index]
    exact m.readV_next fun byte => m.next_run (m.setIndex_stored _)
  | pointGlyph x => exact m.readV_next fun byte => m.next_run (m.setIndex_stored _)
  | storeDecimal x =>
    rw [StoredMachine.execute, readV_bind, execute, storeDecimal]
    cases m.registers.read x.toNat with
    | error fault => rfl
    | ok byte =>
      dsimp only
      rw [get_bind, bind_run, stored_registers, stored_index, writeDigits_stored]
      obtain ⟨memory, outcome⟩ := m.digitsToMemory byte
      cases outcome <;> rfl
  | storeRegisters x =>
    rw [StoredMachine.execute, get_bind, stored_registers, stored_index, execute, storeRegisters]
    dsimp only
    rw [bind_run, saveRegisters_stored]
    obtain ⟨memory, outcome⟩ := m.registersToMemory x
    cases outcome with
    | error fault => rfl
    | ok done => exact finishTransfer_stored { m with memory } x
  | loadRegisters x =>
    -- the loop leaves I where it is
    have index : m.index = (m.withRegisters (m.memoryToRegisters x).1).index := by
      obtain ⟨v, loaded⟩ := m.memoryToRegisters_v x
      rw [loaded]
      rfl
    rw [StoredMachine.execute, get_bind, stored_registers, stored_index, execute, loadRegisters]
    dsimp only
    rw [bind_run, restoreRegisters_stored]
    generalize m.memoryToRegisters x = loaded at index ⊢
    obtain ⟨registers, outcome⟩ := loaded
    cases outcome with
    | error fault => rfl
    | ok done =>
      rw [index]
      exact finishTransfer_stored (m.withRegisters registers) x

end Machine

end Chip8
