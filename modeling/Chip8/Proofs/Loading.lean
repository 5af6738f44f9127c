import Chip8.Proofs.KeyWait

/-!
# Loading forgets

What becomes of a machine into which a program is loaded depends on the program and on three parts
of the machine alone, which outlast the load (`Machine.Lasting`): the generator, the keys held and
the key pressed last. So two machines that agree on these go on alike from the load on, whatever
came before (`load_eq_iff`). The memory is then that of the program and of nothing else
(`Memory.pristine_image`).
-/

namespace Chip8
set_option autoImplicit false

namespace Memory

/-- A memory that holds the font, a program, and zeros everywhere else. -/
structure Pristine (program : List UInt8) (memory : Memory) : Prop where
  digits : ∀ (k : Nat) (h : k < 80), memory.read (fontStart + k) = .ok font[k]
  code : ∀ (k : Nat) (h : k < program.length), memory.read (programStart + k) = .ok program[k]
  elsewhere : ∀ address < memorySize, (address < fontStart ∨ fontStart + 80 ≤ address) →
    (address < programStart ∨ programStart + program.length ≤ address) →
    memory.read address = .ok 0

/-- The memory that a program starts with. -/
theorem pristine_image {program : List UInt8} (fits : program.length ≤ programLimit) :
    (image program).Pristine program := by
  constructor
  · intro k h
    have below : fontStart + k < programStart := by
      change 0x50 + k < 0x200
      omega
    rw [read_image program (Nat.lt_trans below (by decide)), imageByte,
      if_neg (Nat.not_le.2 below), if_pos (Nat.le_add_right ..), Nat.add_sub_cancel_left]
    simp [h]
  · intro k h
    have inside : programStart + k < memorySize := by
      have limit : programStart + programLimit = memorySize := rfl
      omega
    rw [read_image program inside, imageByte, if_pos (Nat.le_add_right ..),
      Nat.add_sub_cancel_left]
    simp [h]
  · intro address inside noDigit noCode
    rw [read_image program inside, imageByte]
    split
    · rename_i above
      have behind : program.length ≤ address - programStart := by omega
      simp [behind]
    · split
      · rename_i above
        have behind : 80 ≤ address - fontStart := by omega
        simp [behind]
      · rfl

end Memory

namespace Machine

variable {m m' : Machine} {program : List UInt8}

/-- What outlasts a load. -/
structure Lasting where
  random : Random
  held : Vector Bool 16
  last : Option UInt8

/-- What of this machine would outlast a load. -/
def lasting (m : Machine) : Lasting :=
  { random := m.random, held := m.keypad.held, last := m.keypad.last }

theorem lasting_loaded (m : Machine) (program : List UInt8) :
    (m.loaded program).lasting = m.lasting := rfl

/-- A loaded machine is made of the program and what outlasts the load. -/
theorem loaded_eq_of_lasting (same : m'.lasting = m.lasting) (program : List UInt8) :
    m'.loaded program = m.loaded program := by
  obtain ⟨random, held, last⟩ := Lasting.mk.inj same
  have keypad : m'.keypad.cancel = m.keypad.cancel := by
    rw [Keypad.cancel, Keypad.cancel, held, last]
  rw [loaded, loaded, random, keypad]
  rfl

/-- Loads of a program that fits lead to one machine exactly from machines that agree on what
outlasts a load. -/
theorem load_eq_iff (fits : program.length ≤ programLimit) :
    m'.load program = .ok (m.loaded program) ↔ m'.lasting = m.lasting := by
  constructor
  · intro load
    obtain ⟨-, same⟩ := load_eq_ok_iff.1 load
    exact (congrArg lasting same).symm
  · intro same
    exact load_eq_ok_iff.2 ⟨fits, (loaded_eq_of_lasting same program).symm⟩

theorem perform_load_of_large (m : Machine) (large : programLimit < program.length) :
    m.perform (.load program) =
      (m, .done (.error (.programTooLarge program.length programLimit))) := by
  rw [perform, m.load_of_large large, attempt]

/-- Loading forgets everything but the generator, the keys held and the key pressed last: loads of
a program that fits lead to one machine exactly from machines that agree on these three, so from
there on all calls are answered alike. The memory then holds the font, the program and nothing
else. A load that is refused, as the program is too large, forgets nothing. -/
theorem load_forgets (m m' : Machine) (program : List UInt8) :
    (program.length ≤ programLimit → ∃ ready, m.load program = .ok ready ∧
      ready.lasting = m.lasting ∧ ready.memory.Pristine program ∧
      (m'.load program = .ok ready ↔ m'.lasting = m.lasting) ∧
      (m'.lasting = m.lasting → ∀ calls,
        m'.answers (.load program :: calls) = m.answers (.load program :: calls) ∧
        m'.after (.load program :: calls) = m.after (.load program :: calls))) ∧
    (programLimit < program.length →
      m.load program = .error (.programTooLarge program.length programLimit) ∧
      m.perform (.load program) =
        (m, .done (.error (.programTooLarge program.length programLimit)))) := by
  constructor
  · intro fits
    refine ⟨m.loaded program, load_eq_ok_iff.2 ⟨fits, rfl⟩, m.lasting_loaded program,
      Memory.pristine_image fits, load_eq_iff fits, fun same calls => ?_⟩
    have performed : m'.perform (.load program) = m.perform (.load program) := by
      rw [perform_load m' fits, perform_load m fits, loaded_eq_of_lasting same]
    rw [answers, answers, after_cons, after_cons, performed]
    exact ⟨rfl, rfl⟩
  · exact fun large => ⟨m.load_of_large large, m.perform_load_of_large large⟩

/-- A program that comes to a word that encodes nothing at once. -/
theorem after_illegal_program (m : Machine) :
    m.after [.load [0x50, 0x01], .step] = (m.loaded [0x50, 0x01]).fail (.illegalOpcode 0x5001) := by
  have inside := m.inProgram_loaded (List.cons_ne_nil 0x50 [0x01])
  have step : (m.loaded [0x50, 0x01]).step = _ :=
    step_of_unfetched rfl inside (fetch_loaded m [0x50, 0x01])
  rw [after_load m (by decide), after_cons, after_nil, perform, step]
  rfl

/-- A program that waits for a key at once, paused. -/
theorem after_waiting_program (m : Machine) :
    m.after [.load [0xF3, 0x0A], .step, .pause] =
      { m.loaded [0xF3, 0x0A] with
        keypad := m.keypad.arm 3, mode := .paused, resumeTo := .awaitingKey } := by
  rw [after_load m (by decide), after_cons, perform, step_of_waiting_program]
  rfl

/-- A machine that failed and one that is paused while it waits for a key go on alike once a
program is loaded. -/
theorem load_forgets_halted :
    let failed := (fresh (.ofSeed 0)).after [.load [0x50, 0x01], .step]
    let waiting := (fresh (.ofSeed 0)).after [.load [0xF3, 0x0A], .step, .pause]
    failed.mode = .halted ∧ failed.fault = some (.illegalOpcode 0x5001) ∧
      waiting.mode = .paused ∧ waiting.keypad.wait = .waiting 3 ∧
      waiting.after [.load [0x60, 0x07], .tick 5] = failed.after [.load [0x60, 0x07], .tick 5] := by
  intro failed waiting
  have fails : failed = _ := after_illegal_program _
  have waits : waiting = _ := after_waiting_program _
  have outlasts (m : Machine) : (m.after [.load [0x50, 0x01], .step]).lasting = m.lasting ∧
      (m.after [.load [0xF3, 0x0A], .step, .pause]).lasting = m.lasting := by
    rw [after_illegal_program, after_waiting_program]
    exact ⟨rfl, rfl⟩
  have same : waiting.lasting = failed.lasting := (outlasts _).2.trans (outlasts _).1.symm
  obtain ⟨_, -, -, -, -, alike⟩ := (load_forgets failed waiting [0x60, 0x07]).1 (by decide)
  refine ⟨?_, ?_, ?_, ?_, (alike same [.tick 5]).2⟩
  · rw [fails, fail]
  · rw [fails, fail]
  · rw [waits]
  · rw [waits, Keypad.arm]

end Machine

end Chip8
