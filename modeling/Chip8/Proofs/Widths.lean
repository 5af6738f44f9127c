import Mathlib.Algebra.Group.Nat.Defs
import Chip8.Machine.Storage
import Chip8.Proofs.Changes

/-!
# Numbers as wide as their cells

Each cell of a stored machine could hold any number, but none is ever put there that does not fit:
a byte in each of V0 to VF and in the timers, an address in I, at most sixteen open calls, 2048
points, and keys that the keypad has. A change keeps the bounds if each of its parts does
(`Change.keeps_bind` and its like), so every operation keeps them, refused or not, and whatever the
sums are that it goes on with (`StoredMachine.keeps_effect`).
-/

namespace Chip8
set_option autoImplicit false

open Change

/-! ## Registers -/

theorem Register.count_eq_two_pow (bits : Nat) : Register.count bits = 2 ^ bits :=
  Nat.one_shiftLeft bits

/-- A number that fits replaces the one held; one that does not is refused, and the one held
stays. -/
theorem putCell_eq (bits value held : Nat) : putCell bits value held =
    if value < 2 ^ bits then .ok () value else .error (.registerOverflow value bits) held := by
  have greatest : Register.greatest bits + 1 = 2 ^ bits := by
    rw [Register.greatest, Register.count_eq_two_pow]
    exact Nat.sub_add_cancel Nat.one_le_two_pow
  by_cases fits : value < 2 ^ bits
  · have narrow : ¬ Register.greatest bits < value := by omega
    rw [putCell, if_neg narrow, if_pos fits]
    rfl
  · have wide : Register.greatest bits < value := by omega
    rw [putCell, if_pos wide, if_neg fits]
    rfl

theorem keeps_putCell {bits limit : Nat} (same : 2 ^ bits = limit) (value : Nat) :
    Keeps (· < limit) (putCell bits value) := by
  intro held holds
  unfold Change.leaves
  rw [putCell_eq, same]
  by_cases fits : value < limit
  · rw [if_pos fits]
    exact fits
  · rw [if_neg fits]
    exact holds

/-- A cell that takes a number or stays as it is leaves the same to the whole. -/
theorem allOrNothing_onPart_putCell {σ : Type} {part : σ → Nat} {replace : Nat → σ → σ}
    (stays : ∀ s, replace (part s) s = s) (bits value : Nat) :
    AllOrNothing (onPart part replace (putCell bits value)) := by
  intro s fault after refused
  unfold onPart at refused
  rw [putCell_eq] at refused
  by_cases fits : value < 2 ^ bits
  · rw [if_pos fits] at refused
    cases refused
  · rw [if_neg fits] at refused
    cases refused
    exact stays s

namespace StoredRegisters

theorem allOrNothing_put (x value : Nat) : AllOrNothing (put x value) := by
  unfold put
  split
  · refine allOrNothing_onPart_putCell (fun r => ?_) 8 value
    rw [Vector.set_getElem_self]
  · intro r fault after refused
    cases refused
    rfl

theorem allOrNothing_setIndex (address : Nat) : AllOrNothing (setIndex address) :=
  allOrNothing_onPart_putCell (fun _ => rfl) 12 address

theorem allOrNothing_setPc (address : Nat) : AllOrNothing (setPc address) :=
  allOrNothing_onPart_putCell (fun _ => rfl) 16 address

/-- No register holds more than it is wide. -/
structure Narrow (r : StoredRegisters) : Prop where
  v : ∀ x (known : x < 16), r.v[x] < 256
  index : r.index < 4096
  pc : r.pc < 65536
  delay : r.delay < 256
  sound : r.sound < 256

theorem narrow_zero : zero.Narrow where
  v x known := by simp [zero]
  index := by decide
  pc := by decide
  delay := by decide
  sound := by decide

theorem keeps_put (x value : Nat) : Keeps Narrow (put x value) := by
  unfold put
  split
  · rename_i known
    refine keeps_onPart (keeps_putCell (by decide) value) (fun r narrow => narrow.v x known)
      fun r cell narrow small => { narrow with v := fun y known' => ?_ }
    by_cases same : x = y
    · subst same
      simpa using small
    · simpa [same] using narrow.v y known'
  · exact keeps_throw _

theorem keeps_setFlag (on : Bool) : Keeps Narrow (setFlag on) := keeps_put _ _

theorem keeps_setIndex (address : Nat) : Keeps Narrow (setIndex address) :=
  keeps_onPart (keeps_putCell (by decide) address) (fun _ narrow => narrow.index)
    fun _ _ narrow small => { narrow with index := small }

theorem keeps_setPc (address : Nat) : Keeps Narrow (setPc address) :=
  keeps_onPart (keeps_putCell (by decide) address) (fun _ narrow => narrow.pc)
    fun _ _ narrow small => { narrow with pc := small }

theorem Narrow.setDelay {r : StoredRegisters} (narrow : r.Narrow) (value : UInt8) :
    (r.setDelay value).Narrow :=
  { narrow with delay := value.toNat_lt }

theorem Narrow.setSound {r : StoredRegisters} (narrow : r.Narrow) (value : UInt8) :
    (r.setSound value).Narrow :=
  { narrow with sound := value.toNat_lt }

/-- The setters of the timers check nothing, but what they are given is a byte. -/
theorem Narrow.decay {r : StoredRegisters} (narrow : r.Narrow) (periods : Nat) :
    (r.decay periods).Narrow :=
  (narrow.setDelay _).setSound _

/-- A narrow register is read as it is. -/
theorem Narrow.read {r : StoredRegisters} (narrow : r.Narrow) {x : Nat} (known : x < 16) :
    ∃ byte, r.read x = .ok byte ∧ byte.toNat = r.v[x] := by
  refine ⟨.ofNat r.v[x], by rw [StoredRegisters.read, dif_pos known], ?_⟩
  exact Nat.mod_eq_of_lt (narrow.v x known)

end StoredRegisters

/-! ## Frame, call stack and keypad -/

namespace StoredFrame

theorem size_set (f : StoredFrame) (x y : Nat) (on : Bool) :
    (f.set x y on).points.size = f.points.size := by
  unfold set
  split
  · rfl
  · exact Array.size_setIfInBounds

theorem size_invertPoints (f : StoredFrame) (points : List (Nat × Nat)) :
    (invertPoints f points).2.points.size = f.points.size := by
  induction points generalizing f with
  | nil => rfl
  | cons point rest ih =>
    rw [invertPoints_cons, ih]
    exact f.size_set point.1 point.2 _

/-- Drawing turns points on and off and makes none. -/
theorem size_paint (f : StoredFrame) (x y : UInt8) (sprite : List UInt8) :
    (paint f x y sprite).2.points.size = f.points.size :=
  f.size_invertPoints _

theorem size_take (f : StoredFrame) : f.take.2.points.size = f.points.size := by
  unfold take
  split <;> rfl

end StoredFrame

theorem CallStack.size_push {s after : CallStack} {address : Nat}
    (pushed : s.push address = .ok after) : after.size ≤ capacity := by
  obtain ⟨room, returns⟩ := returns_of_push pushed
  rw [size, returns]
  exact room

theorem CallStack.size_pop {s after : CallStack} {address : Nat}
    (popped : s.pop = .ok (address, after)) : after.size ≤ s.size := by
  rw [size, size, returns_of_pop popped]
  exact Nat.le_succ _

/-- A wait that holds a key was pressed it just now, or held it before. -/
theorem KeyWait.press_eq_resolved {wait : KeyWait} {key register arrived : UInt8}
    (h : wait.press key = .resolved register arrived) :
    arrived = key ∨ wait = .resolved register arrived := by
  cases wait with
  | idle => cases h
  | waiting _ =>
    cases h
    exact .inl rfl
  | resolved _ _ => exact .inr h

namespace Keypad

/-- The key pressed last and the key that arrived are keys that the keypad has. -/
structure InBounds (k : Keypad) : Prop where
  last : ∀ key, k.last = some key → key.toNat < 16
  arrived : ∀ register key, k.wait = .resolved register key → key.toNat < 16

theorem inBounds_untouched : untouched.InBounds where
  last _ pressed := by cases pressed
  arrived _ _ resolved := by cases resolved

variable {k : Keypad}

theorem InBounds.press (known : k.InBounds) {key : UInt8} {after : Keypad}
    (pressed : k.press key = .ok after) : after.InBounds := by
  unfold Keypad.press at pressed
  split at pressed
  · rename_i exists_key
    cases pressed
    constructor
    · intro other last
      cases last
      exact exists_key
    · intro register other arrived
      rcases KeyWait.press_eq_resolved arrived with rfl | before
      · exact exists_key
      · exact known.arrived register other before
  · cases pressed

theorem InBounds.release (known : k.InBounds) {key : UInt8} {after : Keypad}
    (released : k.release key = .ok after) : after.InBounds := by
  unfold Keypad.release at released
  split at released
  · cases released
    exact ⟨known.last, known.arrived⟩
  · cases released

theorem InBounds.arm (known : k.InBounds) (register : UInt8) : (k.arm register).InBounds where
  last := known.last
  arrived _ _ resolved := by cases resolved

theorem InBounds.cancel (known : k.InBounds) : k.cancel.InBounds where
  last := known.last
  arrived _ _ resolved := by cases resolved

theorem InBounds.take (known : k.InBounds) : k.take.2.InBounds := by
  unfold Keypad.take
  split
  · exact known.cancel
  · exact known

theorem InBounds.perform (known : k.InBounds) (event : KeyEvent) : (k.perform event).InBounds := by
  cases event with
  | press key =>
    show ((k.press key).toOption.getD k).InBounds
    cases pressed : k.press key with
    | ok after => exact known.press pressed
    | error fault => exact known
  | release key =>
    show ((k.release key).toOption.getD k).InBounds
    cases released : k.release key with
    | ok after => exact known.release released
    | error fault => exact known
  | arm register => exact known.arm register
  | cancel => exact known.cancel
  | take => exact known.take

end Keypad

/-! ## The machine -/

namespace StoredMachine

/-- All bounds of a stored machine. -/
structure InBounds (m : StoredMachine) : Prop where
  registers : m.registers.Narrow
  stack : m.stack.size ≤ 16
  frame : m.frame.points.size = 2048
  keypad : m.keypad.InBounds

theorem inBounds_fresh (random : Random) : (fresh random).InBounds where
  registers := StoredRegisters.narrow_zero
  stack := Nat.zero_le 16
  frame := Array.size_replicate
  keypad := Keypad.inBounds_untouched

section

variable {α : Type}

theorem keeps_onRegisters {change : Change StoredRegisters α}
    (kept : Keeps StoredRegisters.Narrow change) : Keeps InBounds (onRegisters change) :=
  keeps_onPart kept (fun _ inside => inside.registers)
    fun _ _ inside narrow => { inside with registers := narrow }

/-- Memory has no bounds of its own: its size is fixed and its bytes are bytes. -/
theorem keeps_onMemory (change : Change Memory α) : Keeps InBounds (onMemory change) :=
  keeps_onPart (Q := fun _ => True) (fun _ _ => trivial) (fun _ _ => trivial)
    fun _ _ inside _ => { inside with }

theorem keeps_onStack {change : Change CallStack α} (kept : Keeps (·.size ≤ 16) change) :
    Keeps InBounds (onStack change) :=
  keeps_onPart kept (fun _ inside => inside.stack)
    fun _ _ inside small => { inside with stack := small }

theorem keeps_onKeypad {change : Change Keypad α} (kept : Keeps Keypad.InBounds change) :
    Keeps InBounds (onKeypad change) :=
  keeps_onPart kept (fun _ inside => inside.keypad)
    fun _ _ inside known => { inside with keypad := known }

end

theorem keeps_readV (x : Nat) : Keeps InBounds (readV x) :=
  keeps_bind keeps_get fun m => keeps_ofExcept (m.registers.read x)

theorem keeps_putV (x value : Nat) : Keeps InBounds (putV x value) :=
  keeps_onRegisters (StoredRegisters.keeps_put x value)

theorem keeps_writeByte (address : Nat) (byte : UInt8) : Keeps InBounds (writeByte address byte) :=
  keeps_onMemory _

theorem keeps_push (address : Nat) : Keeps InBounds (push address) :=
  keeps_onStack (keeps_renew fun _ _ _ pushed => CallStack.size_push pushed)

theorem keeps_pop : Keeps InBounds pop :=
  keeps_onStack <| keeps_whole fun _ _ _ small popped =>
    Nat.le_trans (CallStack.size_pop popped) small

theorem keeps_press (key : UInt8) : Keeps InBounds (press key) :=
  keeps_onKeypad (keeps_renew fun _ _ known pressed => known.press pressed)

theorem keeps_release (key : UInt8) : Keeps InBounds (release key) :=
  keeps_onKeypad (keeps_renew fun _ _ known released => known.release released)

/-! ## Instructions -/

variable (sum : Nat → Nat → Nat)

theorem keeps_drawSprite (x y : UInt8) (sprite : List UInt8) :
    Keeps InBounds (drawSprite x y sprite) :=
  keeps_modifyGet fun m inside =>
    { inside with frame := (m.frame.size_paint x y sprite).trans inside.frame }

theorem keeps_report (flag : Option Bool) : Keeps InBounds (report flag) := by
  cases flag with
  | none => exact keeps_pure ()
  | some on => exact keeps_onRegisters (StoredRegisters.keeps_setFlag on)

theorem keeps_arithmetic (op : Arithmetic) (x y : Nat) : Keeps InBounds (arithmetic op x y) := by
  have second (a : UInt8) := keeps_bind (keeps_readV y) fun b =>
    keeps_bind (keeps_putV x (op.result a b).toNat) fun _ => keeps_report (op.flag? a b)
  refine keeps_bind ?_ second
  cases op.readsTarget with
  | true => exact keeps_readV x
  | false => exact keeps_pure 0

theorem keeps_answer (test : Test) : Keeps InBounds (answer test) := by
  cases test with
  | byte x value => exact keeps_answering (keeps_readV _) _
  | register x y => exact keeps_bind (keeps_readV _) fun _ => keeps_answering (keeps_readV _) _
  | key x =>
    exact keeps_bind (keeps_readV _) fun _ => keeps_bind keeps_get fun _ => keeps_ofExcept _

theorem keeps_draw (x y rows : UInt8) : Keeps InBounds (draw x y rows) :=
  keeps_bind (keeps_readV _) fun across =>
    keeps_bind (keeps_readV _) fun down =>
      keeps_bind keeps_get fun _ =>
        keeps_bind (keeps_ofExcept _) fun sprite =>
          keeps_bind (keeps_drawSprite across down sprite) fun _ =>
            keeps_onRegisters (StoredRegisters.keeps_setFlag _)

theorem keeps_writeDigits (index : Nat) (byte : UInt8) :
    Keeps InBounds (writeDigits sum index byte) :=
  keeps_forM fun _ => keeps_writeByte _ _

theorem keeps_saveRegisters (index : Nat) (x : UInt8) :
    Keeps InBounds (saveRegisters sum index x) :=
  keeps_forM fun r => keeps_bind (keeps_readV r) fun _ => keeps_writeByte _ _

theorem keeps_restoreRegisters (index : Nat) (x : UInt8) :
    Keeps InBounds (restoreRegisters sum index x) :=
  keeps_forM fun r =>
    keeps_bind keeps_get fun _ => keeps_bind (keeps_ofExcept _) fun _ => keeps_putV r _

theorem keeps_finishTransfer (index : Nat) (x : UInt8) :
    Keeps InBounds (finishTransfer sum index x) :=
  keeps_onRegisters (StoredRegisters.keeps_setIndex _)

/-- An instruction keeps the bounds, whatever its operands are and wherever it fails. -/
theorem keeps_execute (i : Instruction) : Keeps InBounds (execute sum i) := by
  cases i with
  | system address => exact keeps_pure _
  | clear =>
    exact keeps_answering
      (keeps_modify fun _ inside => { inside with frame := Array.size_replicate }) _
  | ret => exact keeps_answering keeps_pop _
  | jump target => exact keeps_pure _
  | call target => exact keeps_bind keeps_get fun _ => keeps_answering (keeps_push _) _
  | skip test expected => exact keeps_answering (keeps_answer test) _
  | set x value => exact keeps_answering (keeps_putV _ _) _
  | increase x value =>
    exact keeps_bind (keeps_readV _) fun _ => keeps_answering (keeps_putV _ _) _
  | arithmetic op x y => exact keeps_answering (keeps_arithmetic op _ _) _
  | setIndex address =>
    exact keeps_answering (keeps_onRegisters (StoredRegisters.keeps_setIndex _)) _
  | jumpOffset base => exact keeps_answering (keeps_readV _) _
  | random x mask =>
    exact keeps_bind keeps_get fun _ =>
      keeps_bind (keeps_modify fun _ inside => { inside with }) fun _ =>
        keeps_answering (keeps_putV _ _) _
  | draw x y rows => exact keeps_answering (keeps_draw x y rows) _
  | readDelay x => exact keeps_bind keeps_get fun _ => keeps_answering (keeps_putV _ _) _
  | awaitKey x =>
    exact keeps_bind (keeps_readV _) fun _ => keeps_answering
      (keeps_modify fun _ inside => { inside with keypad := inside.keypad.arm x }) _
  | setDelay x =>
    exact keeps_bind (keeps_readV _) fun byte => keeps_answering
      (keeps_modify fun _ inside => { inside with registers := inside.registers.setDelay byte }) _
  | setSound x =>
    exact keeps_bind (keeps_readV _) fun byte => keeps_answering
      (keeps_modify fun _ inside => { inside with registers := inside.registers.setSound byte }) _
  | increaseIndex x =>
    exact keeps_bind keeps_get fun _ => keeps_bind (keeps_readV _) fun _ =>
      keeps_answering (keeps_onRegisters (StoredRegisters.keeps_setIndex _)) _
  | pointGlyph x =>
    exact keeps_bind (keeps_readV _) fun _ =>
      keeps_answering (keeps_onRegisters (StoredRegisters.keeps_setIndex _)) _
  | storeDecimal x =>
    exact keeps_bind (keeps_readV _) fun byte => keeps_bind keeps_get fun _ =>
      keeps_answering (keeps_writeDigits sum _ byte) _
  | storeRegisters x =>
    exact keeps_bind keeps_get fun _ => keeps_bind (keeps_saveRegisters sum _ x) fun _ =>
      keeps_answering (keeps_finishTransfer sum _ x) _
  | loadRegisters x =>
    exact keeps_bind keeps_get fun _ => keeps_bind (keeps_restoreRegisters sum _ x) fun _ =>
      keeps_answering (keeps_finishTransfer sum _ x) _

/-! ## Control and operations -/

theorem keeps_proceed (progress : Progress) : Keeps InBounds (proceed sum progress) := by
  refine keeps_bind keeps_get fun m => ?_
  cases progress with
  | next | skip | jump => exact keeps_onRegisters (StoredRegisters.keeps_setPc _)
  | hold => exact keeps_modify fun _ inside => { inside with }

theorem keeps_settle : Keeps InBounds settle := by
  refine keeps_bind keeps_get fun m => keeps_bind (keeps_ofExcept _) fun inside => ?_
  split
  · exact keeps_modify fun _ inside => { inside with }
  · exact keeps_pure ()

theorem keeps_conclude (progress : Progress) (cycle : Cycle) :
    Keeps InBounds (conclude sum progress cycle) := by
  refine keeps_bind (keeps_proceed sum progress) fun _ => keeps_bind keeps_get fun _ => ?_
  split
  · exact keeps_answering keeps_settle _
  · exact keeps_pure _

theorem keeps_instructionCycle : Keeps InBounds (instructionCycle sum) :=
  keeps_bind keeps_get fun _ => keeps_bind (keeps_ofExcept _) fun i =>
    keeps_bind (keeps_execute sum i) fun progress => keeps_conclude sum progress _

theorem keeps_runCycle : Keeps InBounds (runCycle sum) := by
  refine keeps_bind keeps_settle fun _ => keeps_bind keeps_get fun m => ?_
  split
  · exact keeps_pure _
  · exact keeps_instructionCycle sum

theorem keeps_goOn (cycle : Cycle) : Keeps InBounds (goOn sum cycle) :=
  keeps_bind (keeps_proceed sum .next) fun _ =>
    keeps_bind (keeps_modify fun _ inside => { inside with }) fun _ =>
      keeps_answering keeps_settle _

theorem keeps_keyCycle : Keeps InBounds (keyCycle sum) := by
  refine keeps_bind (keeps_onKeypad (keeps_whole fun k _ after known taken => ?_)) fun taken => ?_
  · obtain rfl : k.take.2 = after := congrArg Prod.snd (Except.ok.inj taken)
    exact known.take
  · cases taken with
    | none => exact keeps_pure _
    | some arrived =>
      exact keeps_bind (keeps_putV _ _) fun _ => keeps_goOn sum _

theorem keeps_guarded {cycle : Change StoredMachine Cycle} (kept : Keeps InBounds cycle) :
    Keeps InBounds (guarded cycle) :=
  keeps_onRefusal kept fun _ _ inside => { inside with }

theorem keeps_step : Keeps InBounds (step sum) := by
  refine keeps_bind keeps_get fun m => ?_
  cases m.mode with
  | idle => exact keeps_throw _
  | halted | paused => exact keeps_pure _
  | awaitingKey => exact keeps_guarded (keeps_keyCycle sum)
  | running => exact keeps_guarded (keeps_runCycle sum)

theorem keeps_pause : Keeps InBounds (modify pause) :=
  keeps_modify fun m inside => by
    unfold pause
    split
    · exact { inside with }
    · exact inside

theorem keeps_resume : Keeps InBounds (modify resume) :=
  keeps_modify fun m inside => by
    unfold resume
    split
    · exact { inside with }
    · exact inside

theorem keeps_singleStep : Keeps InBounds (singleStep sum) := by
  refine keeps_bind keeps_get fun m => ?_
  split
  · refine keeps_bind (keeps_modify fun _ inside => { inside with }) fun _ => ?_
    exact keeps_tryFinally_modify (keeps_step sum) keeps_pause
  · exact keeps_step sum

theorem keeps_syncTimers (now : Int) : Keeps InBounds (modify (syncTimers now)) :=
  keeps_modify fun m inside => by
    unfold syncTimers
    split
    · dsimp only
      split
      · exact { inside with registers := inside.registers.decay _ }
      · exact { inside with }
    · exact { inside with }

theorem keeps_load (program : List UInt8) : Keeps InBounds (load program) := by
  refine keeps_bind (keeps_ofExcept _) fun memory => keeps_bind (keeps_modify fun _ inside => ?_)
    fun _ => keeps_bind (keeps_onRegisters (StoredRegisters.keeps_setPc _)) fun _ =>
      keeps_modify fun _ inside => ?_
  · exact { inside with registers := StoredRegisters.narrow_zero, stack := Nat.zero_le 16 }
  · exact { inside with frame := Array.size_replicate, keypad := inside.keypad.cancel }

/-- A call keeps the bounds, be it carried out or refused. -/
theorem keeps_perform (call : Call) : Keeps InBounds (perform sum call) := by
  cases call with
  | load program => exact keeps_load program
  | step => exact keeps_discard (keeps_step sum)
  | singleStep => exact keeps_discard (keeps_singleStep sum)
  | tick now => exact keeps_bind (keeps_syncTimers now) fun _ => keeps_discard (keeps_step sum)
  | syncTimers now => exact keeps_syncTimers now
  | pause => exact keeps_pause
  | resume => exact keeps_resume
  | press key => exact keeps_press key
  | release key => exact keeps_release key
  | takeFrame =>
    exact keeps_modify fun m inside =>
      { inside with frame := m.frame.size_take.trans inside.frame }

/-- So does any other operation. -/
theorem keeps_effect (operation : Operation) : Keeps InBounds (effect sum operation) := by
  cases operation with
  | call call => exact keeps_perform sum call
  | execute i => exact keeps_discard (keeps_execute sum i)
  | setRegister x value => exact keeps_putV x value
  | setFlag on => exact keeps_onRegisters (StoredRegisters.keeps_setFlag on)
  | setIndex address => exact keeps_onRegisters (StoredRegisters.keeps_setIndex address)
  | setPc address => exact keeps_onRegisters (StoredRegisters.keeps_setPc address)
  | setDelay value =>
    exact keeps_modify fun _ inside =>
      { inside with registers := inside.registers.setDelay value }
  | setSound value =>
    exact keeps_modify fun _ inside =>
      { inside with registers := inside.registers.setSound value }
  | decay periods =>
    exact keeps_modify fun _ inside => { inside with registers := inside.registers.decay periods }
  | write address byte => exact keeps_writeByte address byte
  | loadImage program =>
    exact keeps_bind (keeps_ofExcept _) fun _ =>
      keeps_modify fun _ inside => { inside with stack := Nat.zero_le 16 }
  | push address => exact keeps_push address
  | pop => exact keeps_discard keeps_pop
  | setPoint x y on =>
    exact keeps_modify fun m inside =>
      { inside with frame := (m.frame.size_set x y on).trans inside.frame }
  | clear => exact keeps_modify fun _ inside => { inside with frame := Array.size_replicate }
  | paint x y sprite => exact keeps_discard (keeps_drawSprite x y sprite)
  | key event =>
    exact keeps_modify fun _ inside => { inside with keypad := inside.keypad.perform event }

/-- However many operations are carried out, and in which order, the bounds are kept. -/
theorem inBounds_operated {m : StoredMachine} (inside : m.InBounds) (operations : List Operation) :
    (m.operated sum operations).InBounds := by
  induction operations generalizing m with
  | nil => exact inside
  | cons operation rest ih => exact ih (keeps_effect sum operation m inside)

end StoredMachine

end Chip8
