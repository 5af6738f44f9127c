import Chip8.Machine.Control
import Chip8.Proofs.Refusal

/-!
# How an instruction moves the machine on

What a successful instruction answers (`Machine.Answers`), which address the answer leads to
(`Progress.destination`), and what becomes of a machine that arrives there: it goes on inside
its program and halts outside (`Machine.settled`), and nothing but the program counter, the mode
and the fault is touched on the way (`Machine.MovesOn`).
-/

namespace Chip8
set_option autoImplicit false

/-- The address of the next instruction, if this one lies at `pc`. -/
def Progress.destination (pc : Nat) : Progress → Nat
  | .next => pc + 2
  | .skip => pc + 4
  | .jump target => target
  | .hold => pc

namespace Machine

/-- Whether the program counter lies in the loaded program. -/
def InProgram (m : Machine) : Prop :=
  ∃ size ∈ m.programSize, programStart ≤ m.pc ∧ m.pc < programStart + size

instance (m : Machine) : Decidable m.InProgram :=
  match h : m.programSize with
  | none => .isFalse fun ⟨_, loaded, _⟩ => by cases h.symm.trans loaded
  | some size =>
    decidable_of_iff (programStart ≤ m.pc ∧ m.pc < programStart + size) <| by
      simp [InProgram, h]

theorem inProgram_eq_ok_true_iff {m : Machine} : m.inProgram = .ok true ↔ m.InProgram := by
  unfold inProgram InProgram
  split <;> simp_all

theorem inProgram_of_loaded {m : Machine} (loaded : m.programSize ≠ none) :
    m.inProgram = .ok (decide m.InProgram) := by
  obtain ⟨size, h⟩ := Option.ne_none_iff_exists'.1 loaded
  simp [inProgram, InProgram, h]

/-- In a program whose size is known, being in it is a question of bounds. -/
theorem inProgram_iff_of_size {m : Machine} {size : Nat} (loaded : m.programSize = some size) :
    m.InProgram ↔ programStart ≤ m.pc ∧ m.pc < programStart + size := by
  simp [InProgram, loaded]

/-- Whether the program counter lies in the program depends on nothing else. -/
theorem inProgram_congr {m after : Machine} (pc : after.registers.pc = m.registers.pc)
    (size : after.programSize = m.programSize) : after.InProgram ↔ m.InProgram := by
  unfold InProgram Machine.pc
  rw [pc, size]

/-- The machine with another program counter. -/
def withPc (m : Machine) (pc : Register 16) : Machine :=
  m.withRegisters { m.registers with pc }

/-- The machine once it was seen whether it still is in its program. -/
def settled (m : Machine) : Machine := if m.InProgram then m else m.withMode .halted

theorem settle_of_loaded {m : Machine} (loaded : m.programSize ≠ none) :
    m.settle = .ok m.settled := by
  simp only [settle, settled, inProgram_of_loaded loaded, ok_bind, decide_eq_true_eq, pure_eq_ok]

theorem moveTo_of_lt (m : Machine) {address : Nat} (h : address < Register.count 16) :
    m.moveTo address = .ok (m.withPc ⟨address, h⟩) := by
  simp [moveTo, RegisterFile.setPc, Register.ofNat, h, withPc]

/-- A running machine that is not held arrives at its destination. -/
theorem conclude_of_lt {m : Machine} {progress : Progress} {cycle : Cycle}
    (running : m.mode = .running) (loaded : m.programSize ≠ none) (moves : progress ≠ .hold)
    (h : progress.destination m.pc < Register.count 16) :
    m.conclude progress cycle = ((m.withPc ⟨progress.destination m.pc, h⟩).settled, .ok cycle) := by
  have moved : m.proceed progress = .ok (m.withPc ⟨progress.destination m.pc, h⟩) := by
    cases progress with
    | next | skip | jump => exact m.moveTo_of_lt h
    | hold => exact absurd rfl moves
  have settled := settle_of_loaded (m := m.withPc ⟨progress.destination m.pc, h⟩) loaded
  simp only [conclude, moved, settled]
  exact if_pos running

theorem conclude_hold (m : Machine) (cycle : Cycle) :
    m.conclude .hold cycle = (m.withMode .awaitingKey, .ok cycle) := rfl

/-- The machine afterwards differs in the program counter, the mode and the fault alone. -/
def MovesOn (m after : Machine) : Prop :=
  ∃ pc mode fault, after = { m with registers := { m.registers with pc }, mode, fault }

theorem MovesOn.refl (m : Machine) : m.MovesOn m := ⟨m.registers.pc, m.mode, m.fault, rfl⟩

theorem MovesOn.trans {m after later : Machine} (first : m.MovesOn after)
    (second : after.MovesOn later) : m.MovesOn later := by
  obtain ⟨_, _, _, rfl⟩ := first
  obtain ⟨pc, mode, fault, rfl⟩ := second
  exact ⟨pc, mode, fault, rfl⟩

theorem MovesOn.frame {m after : Machine} (moves : m.MovesOn after) : after.frame = m.frame := by
  obtain ⟨_, _, _, rfl⟩ := moves
  rfl

theorem proceed_movesOn {m after : Machine} {progress : Progress}
    (h : m.proceed progress = .ok after) : m.MovesOn after := by
  have moveTo (address : Nat) (h : m.moveTo address = .ok after) : m.MovesOn after := by
    obtain ⟨registers, set, h⟩ := bind_eq_ok_iff.1 h
    obtain ⟨pc, -, set⟩ := bind_eq_ok_iff.1 set
    cases set
    cases h
    exact ⟨pc, m.mode, m.fault, rfl⟩
  cases progress with
  | next | skip | jump => exact moveTo _ h
  | hold =>
    cases h
    exact ⟨m.registers.pc, .awaitingKey, m.fault, rfl⟩

theorem settle_movesOn {m after : Machine} (h : m.settle = .ok after) : m.MovesOn after := by
  obtain ⟨inside, -, h⟩ := bind_eq_ok_iff.1 h
  cases h
  cases inside with
  | true => exact .refl m
  | false => exact ⟨m.registers.pc, .halted, m.fault, rfl⟩

/-- The end of a step, of a sound machine or any other, takes the program counter and the mode
along and reports the cycle that it was given, if it does not fail. -/
theorem conclude_movesOn (m : Machine) (progress : Progress) (cycle : Cycle) :
    m.MovesOn (m.conclude progress cycle).1 ∧
      ∀ answer, (m.conclude progress cycle).2 = .ok answer → answer = cycle := by
  unfold conclude
  cases proceeds : m.proceed progress with
  | error fault => exact ⟨.refl m, nofun⟩
  | ok moved =>
    have moves := proceed_movesOn proceeds
    dsimp only
    split
    · cases settles : moved.settle with
      | error fault => exact ⟨moves, nofun⟩
      | ok settled => exact ⟨moves.trans (settle_movesOn settles), fun _ h => by cases h; rfl⟩
    · exact ⟨moves, fun _ h => by cases h; rfl⟩

theorem guard_movesOn (done : Machine × Except Fault Cycle) : done.1.MovesOn (guard done).1 := by
  obtain ⟨m, fault | cycle⟩ := done
  · exact ⟨m.registers.pc, .halted, some fault, rfl⟩
  · exact .refl m

theorem guard_snd (done : Machine × Except Fault Cycle) : (guard done).2 = done.2 := by
  obtain ⟨m, _ | _⟩ := done <;> rfl

/-- To pick up a key changes the keypad and the V registers, besides moving on. -/
theorem keyCycle_movesOn (m : Machine) : ∃ v keypad,
    ({ m with registers := { m.registers with v }, keypad } : Machine).MovesOn m.keyCycle.1 ∧
      ∀ answer, m.keyCycle.2 = .ok answer →
        answer = .awaitingKey ∨ ∃ register key, answer = .keyReceived register key := by
  unfold keyCycle
  split
  · exact ⟨m.registers.v, m.keypad, .refl m, fun _ h => .inl (by cases h; rfl)⟩
  · rename_i register key keypad _
    cases receives : { m with keypad }.receiveKey register key with
    | error fault => exact ⟨m.registers.v, keypad, .refl _, nofun⟩
    | ok received =>
      obtain ⟨registers, written, h⟩ := bind_eq_ok_iff.1 receives
      cases h
      rw [RegisterFile.writeNat_toNat] at written
      obtain ⟨v, rfl⟩ := RegisterFile.write_changes_v written
      obtain ⟨moves, answers⟩ := conclude_movesOn
        (({ m with keypad } : Machine).withRegisters { m.registers with v } |>.withMode .running)
        .next (.keyReceived register key)
      refine ⟨v, keypad, .trans ⟨m.registers.pc, .running, m.fault, rfl⟩ moves, fun answer h => ?_⟩
      exact .inr ⟨register, key, answers answer h⟩

/-- What an instruction that succeeds answers. -/
def Answers (m : Machine) : Instruction → Progress → Prop
  | .ret, progress => ∃ address ∈ m.stack.returns.head?, progress = .jump address
  | .jump target, progress | .call target, progress => progress = .jump target.toNat
  | .skip test expected, progress =>
    ∃ answer, m.answer test = .ok answer ∧ progress = .skipIf (answer == expected)
  | .jumpOffset base, progress =>
    ∃ byte, m.registers.read 0 = .ok byte ∧ progress = .jump (base.toNat + byte.toNat)
  | .awaitKey _, progress => progress = .hold
  | _, progress => progress = .next

theorem changeRegisters_answer {m : Machine} {registers : Except Fault RegisterFile}
    {progress : Progress} (h : (m.changeRegisters registers).2 = .ok progress) :
    progress = .next := by
  rw [changeRegisters_snd, map_eq_ok_iff] at h
  obtain ⟨_, -, h⟩ := h
  exact h.symm

theorem finishTransfer_answer {m : Machine} {x : UInt8} {outcome : Except Fault Unit}
    {progress : Progress} (h : (m.finishTransfer x outcome).2 = .ok progress) :
    progress = .next := by
  cases outcome with
  | error fault => cases h
  | ok done => exact changeRegisters_answer h

/-- An effect that happens as a whole answers what its success answers. -/
theorem whole_answer {m : Machine} {effect : Except Fault (Machine × Progress)}
    {progress : Progress} (h : (m.whole effect).2 = .ok progress) :
    ∃ after, effect = .ok (after, progress) := by
  rw [whole_snd, map_eq_ok_iff] at h
  obtain ⟨⟨after, _⟩, done, rfl⟩ := h
  exact ⟨after, done⟩

theorem execute_answers {m : Machine} {i : Instruction} {progress : Progress}
    (h : (m.execute i).2 = .ok progress) : m.Answers i progress := by
  cases i with
  | system | clear | jump =>
    cases h
    rfl
  | ret =>
    obtain ⟨after, h⟩ := whole_answer h
    obtain ⟨⟨address, stack⟩, popped, h⟩ := bind_eq_ok_iff.1 h
    cases h
    refine ⟨address, ?_, rfl⟩
    rw [CallStack.returns_of_pop popped]
    rfl
  | call target =>
    obtain ⟨after, h⟩ := whole_answer h
    obtain ⟨stack, -, h⟩ := bind_eq_ok_iff.1 h
    cases h
    rfl
  | skip test expected =>
    obtain ⟨after, h⟩ := whole_answer h
    obtain ⟨answer, answered, h⟩ := bind_eq_ok_iff.1 h
    cases h
    exact ⟨answer, answered, rfl⟩
  | jumpOffset base =>
    obtain ⟨after, h⟩ := whole_answer h
    obtain ⟨byte, read, h⟩ := bind_eq_ok_iff.1 h
    cases h
    exact ⟨byte, read, rfl⟩
  | draw x y rows =>
    obtain ⟨after, h⟩ := whole_answer h
    obtain ⟨drawn, -, h⟩ := bind_eq_ok_iff.1 h
    cases h
    rfl
  | awaitKey x =>
    obtain ⟨after, h⟩ := whole_answer h
    obtain ⟨byte, -, h⟩ := bind_eq_ok_iff.1 h
    cases h
    rfl
  | storeDecimal x =>
    change (m.storeDecimal x).2 = .ok progress at h
    unfold storeDecimal at h
    split at h
    · cases h
    · obtain ⟨done, -, h⟩ := map_eq_ok_iff.1 h
      exact h.symm
  | storeRegisters | loadRegisters => exact finishTransfer_answer h
  | set | increase | arithmetic | setIndex | random | readDelay | setDelay | setSound
  | increaseIndex | pointGlyph => exact changeRegisters_answer h

/-- Only a wait for a key holds the machine. -/
theorem execute_hold {m : Machine} {i : Instruction} (h : (m.execute i).2 = .ok .hold) :
    ∃ x, i = .awaitKey x := by
  have answers := execute_answers h
  cases i with
  | awaitKey x => exact ⟨x, rfl⟩
  | skip test expected =>
    obtain ⟨answer, -, h⟩ := answers
    unfold Progress.skipIf at h
    split at h <;> cases h
  | ret | jumpOffset =>
    obtain ⟨_, -, h⟩ := answers
    cases h
  | system | clear | jump | call | set | increase | arithmetic | setIndex | random | draw
  | readDelay | setDelay | setSound | increaseIndex | pointGlyph | storeDecimal
  | storeRegisters | loadRegisters => cases answers

/-- Arming is all that a wait for a key does. -/
theorem execute_awaitKey {m : Machine} {x : UInt8} (h : Instruction.IsDigit x) :
    m.execute (.awaitKey x) = ({ m with keypad := m.keypad.arm x }, .ok .hold) := by
  obtain ⟨byte, readX⟩ := m.registers.exists_read h
  simp [execute, readX, whole]

end Machine

end Chip8
