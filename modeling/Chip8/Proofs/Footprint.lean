import Chip8.Machine.Execute
import Chip8.Proofs.Outcome

/-!
# What an instruction touches

`Machine.Footprint` names, instruction by instruction, the parts of the machine that may
differ afterwards, and `execute_footprint` says that nothing else does, on success and on
failure, for all operands. Read the other way, `execute_spares` names for each part the
instructions that touch it.
-/

namespace Chip8
set_option autoImplicit false

namespace RegisterFile

theorem write_changes_v {r written : RegisterFile} {x : Nat} {byte : UInt8}
    (h : r.write x byte = .ok written) : ∃ v, written = { r with v } := by
  obtain ⟨-, rfl⟩ := write_eq_ok_iff.1 h
  exact ⟨_, rfl⟩

theorem report_changes_v (r : RegisterFile) (flag : Option Bool) :
    ∃ v, r.report flag = { r with v } := by
  cases flag with
  | none => exact ⟨r.v, rfl⟩
  | some on => exact ⟨_, rfl⟩

theorem arithmetic_changes_v {r written : RegisterFile} {op : Arithmetic} {x y : Nat}
    (h : r.arithmetic op x y = .ok written) : ∃ v, written = { r with v } := by
  obtain ⟨a, -, h⟩ := bind_eq_ok_iff.1 h
  obtain ⟨b, -, h⟩ := bind_eq_ok_iff.1 h
  obtain ⟨result, put, h⟩ := bind_eq_ok_iff.1 h
  obtain ⟨v, rfl⟩ := write_changes_v put
  cases h
  exact report_changes_v _ _

theorem setIndex_changes_index {r written : RegisterFile} {address : Nat}
    (h : r.setIndex address = .ok written) : ∃ index, written = { r with index } := by
  obtain ⟨fits, rfl⟩ := setIndex_eq_ok_iff.1 h
  exact ⟨_, rfl⟩

end RegisterFile

/-- A sweep keeps what each of its changes keeps, however far it comes. -/
theorem sweep_fst_of {σ α : Type} {change : σ → α → Except Fault σ} {P : σ → Prop} {s : σ}
    {items : List α} (start : P s)
    (step : ∀ s, ∀ item ∈ items, ∀ after, P s → change s item = .ok after → P after) :
    P (sweep change s items).1 := by
  induction items generalizing s with
  | nil => exact start
  | cons item rest ih =>
    unfold sweep
    split
    · rename_i after h
      have here := step s item List.mem_cons_self after start h
      exact ih here fun s item later => step s item (List.mem_cons_of_mem _ later)
    · exact start

/-- Whether an instruction writes to memory. -/
def Instruction.Stores (i : Instruction) : Prop :=
  (∃ x, i = .storeDecimal x) ∨ ∃ x, i = .storeRegisters x

namespace Machine

/-- What an instruction may leave behind, whether it succeeds or fails: every part of
the machine that is not named here is as it was. -/
def Footprint (m : Machine) : Instruction → Machine → Prop
  | .system _, after | .jump _, after | .skip _ _, after | .jumpOffset _, after => after = m
  | .clear, after => after = { m with frame := m.frame.clear }
  | .ret, after | .call _, after => ∃ stack, after = { m with stack }
  | .set _ _, after | .increase _ _, after | .arithmetic _ _ _, after | .readDelay _, after =>
    ∃ v, after = m.withRegisters { m.registers with v }
  | .setIndex _, after | .increaseIndex _, after | .pointGlyph _, after =>
    ∃ index, after = m.withRegisters { m.registers with index }
  | .random _ _, after =>
    ∃ v, after = { m with registers := { m.registers with v }, random := m.random.next.2 }
  | .draw _ _ _, after =>
    ∃ v frame, after = { m with registers := { m.registers with v }, frame }
  | .awaitKey _, after => ∃ wait, after = { m with keypad := { m.keypad with wait } }
  | .setDelay _, after => ∃ delay, after = m.withRegisters { m.registers with delay }
  | .setSound _, after => ∃ sound, after = m.withRegisters { m.registers with sound }
  | .storeDecimal _, after => ∃ memory, after = { m with memory }
  | .storeRegisters _, after =>
    ∃ memory index, after = { m with memory, registers := { m.registers with index } }
  | .loadRegisters _, after => ∃ v index, after = m.withRegisters { m.registers with v, index }

/-- An effect that happens as a whole or not at all keeps what both endings keep. -/
theorem whole_of {m : Machine} {effect : Except Fault (Machine × Progress)} {P : Machine → Prop}
    (old : P m) (new : ∀ after progress, effect = .ok (after, progress) → P after) :
    P (m.whole effect).1 := by
  cases effect with
  | error fault => exact old
  | ok done => exact new done.1 done.2 rfl

theorem changeRegisters_of {m : Machine} {registers : Except Fault RegisterFile}
    {P : Machine → Prop} (old : P m)
    (new : ∀ r, registers = .ok r → P (m.withRegisters r)) :
    P (m.changeRegisters registers).1 := by
  apply whole_of old
  intro after progress h
  obtain ⟨r, changed, h⟩ := map_eq_ok_iff.1 h
  cases h
  exact new r changed

/-- A change of the V registers alone. -/
theorem changeRegisters_v {m : Machine} {registers : Except Fault RegisterFile}
    (new : ∀ r, registers = .ok r → ∃ v, r = { m.registers with v }) :
    ∃ v, (m.changeRegisters registers).1 = m.withRegisters { m.registers with v } := by
  apply changeRegisters_of (P := fun after => ∃ v, after = m.withRegisters { m.registers with v })
  · exact ⟨m.registers.v, rfl⟩
  · intro r h
    obtain ⟨v, rfl⟩ := new r h
    exact ⟨v, rfl⟩

/-- A change of I alone. -/
theorem changeRegisters_index {m : Machine} {registers : Except Fault RegisterFile}
    (new : ∀ r, registers = .ok r → ∃ index, r = { m.registers with index }) :
    ∃ index, (m.changeRegisters registers).1 = m.withRegisters { m.registers with index } := by
  apply changeRegisters_of
    (P := fun after => ∃ index, after = m.withRegisters { m.registers with index })
  · exact ⟨m.registers.index, rfl⟩
  · intro r h
    obtain ⟨index, rfl⟩ := new r h
    exact ⟨index, rfl⟩

theorem finishTransfer_index (m : Machine) (x : UInt8) (outcome : Except Fault Unit) :
    ∃ index, (m.finishTransfer x outcome).1 = m.withRegisters { m.registers with index } := by
  cases outcome with
  | error fault => exact ⟨m.registers.index, rfl⟩
  | ok done => exact changeRegisters_index fun r h => RegisterFile.setIndex_changes_index h

/-- Registers loaded from memory differ from the old ones in the V registers alone. -/
theorem memoryToRegisters_v (m : Machine) (x : UInt8) :
    ∃ v, (m.memoryToRegisters x).1 = { m.registers with v } := by
  apply sweep_fst_of (P := fun r : RegisterFile => ∃ v, r = { m.registers with v })
    ⟨m.registers.v, rfl⟩
  rintro _ item - after ⟨v, rfl⟩ h
  obtain ⟨byte, -, h⟩ := bind_eq_ok_iff.1 h
  obtain ⟨v', rfl⟩ := RegisterFile.write_changes_v h
  exact ⟨v', rfl⟩

/-- An instruction touches nothing outside its footprint. -/
theorem execute_footprint (m : Machine) (i : Instruction) : m.Footprint i (m.execute i).1 := by
  cases i with
  | system address => rfl
  | jump target => rfl
  | clear => rfl
  | ret =>
    apply whole_of (P := m.Footprint .ret)
    · exact ⟨m.stack, rfl⟩
    · intro after progress h
      obtain ⟨⟨address, stack⟩, -, h⟩ := bind_eq_ok_iff.1 h
      cases h
      exact ⟨stack, rfl⟩
  | call target =>
    apply whole_of (P := m.Footprint (.call target))
    · exact ⟨m.stack, rfl⟩
    · intro after progress h
      obtain ⟨stack, -, h⟩ := bind_eq_ok_iff.1 h
      cases h
      exact ⟨stack, rfl⟩
  | skip test expected =>
    apply whole_of (P := m.Footprint (.skip test expected))
    · rfl
    · intro after progress h
      obtain ⟨answer, -, h⟩ := bind_eq_ok_iff.1 h
      cases h
      rfl
  | jumpOffset base =>
    apply whole_of (P := m.Footprint (.jumpOffset base))
    · rfl
    · intro after progress h
      obtain ⟨byte, -, h⟩ := bind_eq_ok_iff.1 h
      cases h
      rfl
  | set x value => exact changeRegisters_v fun r h => RegisterFile.write_changes_v h
  | increase x value =>
    apply changeRegisters_v
    intro r h
    obtain ⟨byte, -, h⟩ := bind_eq_ok_iff.1 h
    exact RegisterFile.write_changes_v h
  | arithmetic op x y => exact changeRegisters_v fun r h => RegisterFile.arithmetic_changes_v h
  | readDelay x => exact changeRegisters_v fun r h => RegisterFile.write_changes_v h
  | setIndex address => exact changeRegisters_index fun r h => RegisterFile.setIndex_changes_index h
  | increaseIndex x =>
    apply changeRegisters_index
    intro r h
    obtain ⟨byte, -, h⟩ := bind_eq_ok_iff.1 h
    exact RegisterFile.setIndex_changes_index h
  | pointGlyph x =>
    apply changeRegisters_index
    intro r h
    obtain ⟨byte, -, h⟩ := bind_eq_ok_iff.1 h
    exact RegisterFile.setIndex_changes_index h
  | random x mask =>
    exact changeRegisters_v (m := { m with random := m.random.next.2 })
      fun r h => RegisterFile.write_changes_v h
  | draw x y rows =>
    apply whole_of (P := m.Footprint (.draw x y rows))
    · exact ⟨m.registers.v, m.frame, rfl⟩
    · intro after progress h
      obtain ⟨⟨collision, drawn⟩, painted, h⟩ := bind_eq_ok_iff.1 h
      obtain ⟨across, -, painted⟩ := bind_eq_ok_iff.1 painted
      obtain ⟨down, -, painted⟩ := bind_eq_ok_iff.1 painted
      obtain ⟨sprite, -, painted⟩ := bind_eq_ok_iff.1 painted
      cases painted
      cases h
      exact ⟨_, _, rfl⟩
  | awaitKey x =>
    apply whole_of (P := m.Footprint (.awaitKey x))
    · exact ⟨m.keypad.wait, rfl⟩
    · intro after progress h
      obtain ⟨byte, -, h⟩ := bind_eq_ok_iff.1 h
      cases h
      exact ⟨_, rfl⟩
  | setDelay x =>
    apply changeRegisters_of (P := m.Footprint (.setDelay x))
    · exact ⟨m.registers.delay, rfl⟩
    · intro r h
      obtain ⟨byte, -, h⟩ := bind_eq_ok_iff.1 h
      cases h
      exact ⟨byte, rfl⟩
  | setSound x =>
    apply changeRegisters_of (P := m.Footprint (.setSound x))
    · exact ⟨m.registers.sound, rfl⟩
    · intro r h
      obtain ⟨byte, -, h⟩ := bind_eq_ok_iff.1 h
      cases h
      exact ⟨byte, rfl⟩
  | storeDecimal x =>
    change m.Footprint (.storeDecimal x) (m.storeDecimal x).1
    unfold storeDecimal
    split
    · exact ⟨m.memory, rfl⟩
    · exact ⟨_, rfl⟩
  | storeRegisters x =>
    obtain ⟨index, h⟩ := finishTransfer_index { m with memory := _ } x _
    exact ⟨_, index, h⟩
  | loadRegisters x =>
    obtain ⟨v, loaded⟩ := memoryToRegisters_v m x
    obtain ⟨index, h⟩ := finishTransfer_index (m.withRegisters (m.memoryToRegisters x).1) x
      (m.memoryToRegisters x).2
    refine ⟨v, index, h.trans ?_⟩
    simp only [loaded, withRegisters]

/-- The parts of a machine that no instruction touches by itself. -/
structure SameControl (m after : Machine) : Prop where
  pc : after.registers.pc = m.registers.pc
  mode : after.mode = m.mode
  resumeTo : after.resumeTo = m.resumeTo
  programSize : after.programSize = m.programSize
  fault : after.fault = m.fault

theorem execute_sameControl (m : Machine) (i : Instruction) :
    m.SameControl (m.execute i).1 := by
  have h := execute_footprint m i
  generalize (m.execute i).1 = after at h
  cases i with
  | system | clear | jump | skip | jumpOffset =>
    cases h
    exact ⟨rfl, rfl, rfl, rfl, rfl⟩
  | ret | call | set | increase | arithmetic | setIndex | readDelay | setDelay | setSound
  | increaseIndex | pointGlyph | random | awaitKey | storeDecimal =>
    obtain ⟨_, rfl⟩ := h
    exact ⟨rfl, rfl, rfl, rfl, rfl⟩
  | draw | storeRegisters | loadRegisters =>
    obtain ⟨_, _, rfl⟩ := h
    exact ⟨rfl, rfl, rfl, rfl, rfl⟩

/-- The parts that few instructions touch. Each is as it was, unless the instruction is one of
them. -/
structure Spares (m : Machine) (i : Instruction) (after : Machine) : Prop where
  memory : ¬ i.Stores → after.memory = m.memory
  stack : i ≠ .ret → (∀ target, i ≠ .call target) → after.stack = m.stack
  frame : i ≠ .clear → (∀ x y rows, i ≠ .draw x y rows) → after.frame = m.frame
  keypad : (∀ x, i ≠ .awaitKey x) → after.keypad = m.keypad
  random : (∀ x mask, i ≠ .random x mask) → after.random = m.random

theorem execute_spares (m : Machine) (i : Instruction) : m.Spares i (m.execute i).1 := by
  have h := execute_footprint m i
  generalize (m.execute i).1 = after at h
  cases i with
  | system | jump | skip | jumpOffset =>
    cases h
    constructor <;> intros <;> rfl
  | set | increase | arithmetic | setIndex | readDelay | setDelay | setSound | increaseIndex
  | pointGlyph =>
    obtain ⟨_, rfl⟩ := h
    constructor <;> intros <;> rfl
  | loadRegisters =>
    obtain ⟨_, _, rfl⟩ := h
    constructor <;> intros <;> rfl
  | storeDecimal x =>
    obtain ⟨_, rfl⟩ := h
    constructor
    case memory => exact fun plain => absurd (.inl ⟨x, rfl⟩) plain
    all_goals intros; rfl
  | storeRegisters x =>
    obtain ⟨_, _, rfl⟩ := h
    constructor
    case memory => exact fun plain => absurd (.inr ⟨x, rfl⟩) plain
    all_goals intros; rfl
  | ret =>
    obtain ⟨_, rfl⟩ := h
    constructor
    case stack => exact fun other => absurd rfl other
    all_goals intros; rfl
  | call target =>
    obtain ⟨_, rfl⟩ := h
    constructor
    case stack => exact fun _ other => absurd rfl (other target)
    all_goals intros; rfl
  | clear =>
    cases h
    constructor
    case frame => exact fun other => absurd rfl other
    all_goals intros; rfl
  | draw x y rows =>
    obtain ⟨_, _, rfl⟩ := h
    constructor
    case frame => exact fun _ other => absurd rfl (other x y rows)
    all_goals intros; rfl
  | awaitKey x =>
    obtain ⟨_, rfl⟩ := h
    constructor
    case keypad => exact fun other => absurd rfl (other x)
    all_goals intros; rfl
  | random x mask =>
    obtain ⟨_, rfl⟩ := h
    constructor
    case random => exact fun other => absurd rfl (other x mask)
    all_goals intros; rfl

/-- A return closes a call, a call opens one, and nothing else touches the call stack. -/
theorem execute_stack (m : Machine) (i : Instruction) :
    (m.execute i).1.stack = m.stack ∨
      i = .ret ∧ (∃ address, m.stack.pop = .ok (address, (m.execute i).1.stack)) ∨
      (∃ target, i = .call target) ∧ m.stack.push (m.pc + 2) = .ok (m.execute i).1.stack := by
  cases i with
  | ret =>
    cases popped : m.stack.pop with
    | error fault => exact .inl (by simp [execute, popped, whole])
    | ok done => exact .inr (.inl ⟨rfl, done.1, by simp [execute, popped, whole]⟩)
  | call target =>
    cases pushed : m.stack.push (m.pc + 2) with
    | error fault => exact .inl (by simp [execute, pushed, whole])
    | ok stack => exact .inr (.inr ⟨⟨target, rfl⟩, by simp [execute, pushed, whole]⟩)
  | system | clear | jump | skip | set | increase | arithmetic | setIndex | jumpOffset | random
  | draw | readDelay | awaitKey | setDelay | setSound | increaseIndex | pointGlyph | storeDecimal
  | storeRegisters | loadRegisters =>
    exact .inl ((m.execute_spares _).stack (by simp) (by simp))

/-- Only a wait for a key touches the keypad. -/
theorem execute_keypad (m : Machine) (i : Instruction) :
    (m.execute i).1.keypad = m.keypad ∨ ∃ x, i = .awaitKey x := by
  by_cases waits : ∃ x, i = .awaitKey x
  · exact .inr waits
  · exact .inl ((m.execute_spares i).keypad fun x same => waits ⟨x, same⟩)

end Machine

end Chip8
