import Chip8.Proofs.Calls

/-!
# Where a machine stands, and why it halted

What soundness says to somebody who calls the machine (`halting_invariant`): a machine under
way stands in its program, and a halted one has a fault exactly if it still stands there. An
empty program is the one exception: it starts outside, and none of it is ever executed.
-/

namespace Chip8
set_option autoImplicit false

namespace Machine

variable {m : Machine}

/-- The instructions executed since the last load, given those `executed` before a call and
what the call was answered. -/
def record (executed : List Instruction) : Call → Answer → List Instruction
  | .load _, .done (.ok ()) => []
  | _, .cycle (.ok (.executed i)) => executed ++ [i]
  | _, _ => executed

/-- The instructions executed since the last load, given those `executed` before a history. -/
def executedSinceLoad (m : Machine) (executed : List Instruction) : List Call → List Instruction
  | [] => executed
  | call :: calls =>
    (m.perform call).1.executedSinceLoad (record executed call (m.perform call).2) calls

/-- As long as the program is empty, a call executes nothing. -/
theorem record_of_empty (sound : m.Sound) {executed : List Instruction}
    (before : m.programSize = some 0 → executed = []) (call : Call)
    (empty : (m.perform call).1.programSize = some 0) :
    record executed call (m.perform call).2 = [] := by
  by_cases load : ∃ program, call = .load program
  · obtain ⟨program, rfl⟩ := load
    cases loaded : m.load program with
    | error fault =>
      simp only [perform, attempt, loaded] at empty ⊢
      exact before empty
    | ok after => simp only [perform, attempt, loaded, record]
  · rw [perform_programSize sound fun program same => load ⟨program, same⟩] at empty
    unfold record
    split
    · rfl
    · rename_i i answer
      obtain ⟨size, loaded, above, below⟩ := inProgram_of_executed sound answer
      cases loaded.symm.trans empty
      omega
    · exact before empty

theorem executedSinceLoad_of_empty (sound : m.Sound) {executed : List Instruction}
    (before : m.programSize = some 0 → executed = []) (calls : List Call)
    (empty : (m.after calls).programSize = some 0) :
    m.executedSinceLoad executed calls = [] := by
  induction calls generalizing m executed with
  | nil => exact before empty
  | cons call rest ih =>
    exact ih (sound.perform call) (record_of_empty sound before call) empty

theorem Sound.exists_size (sound : m.Sound) (loaded : m.mode ≠ .idle) :
    ∃ size, m.programSize = some size :=
  Option.ne_none_iff_exists'.1 (sound.loaded loaded)

/-- Every machine that calls lead to is idle exactly as long as nothing was loaded, goes on
from a pause by running or waiting, and has a fault only if halted. Halted it has a fault
exactly if it still stands in its program; under way or paused it stands there, or at the
start of an empty program of which nothing was executed. -/
theorem halting_invariant (random : Random) (calls : List Call) :
    let m := (fresh random).after calls
    (m.mode = .idle ↔ m.programSize = none) ∧
    (m.resumeTo = .running ∨ m.resumeTo = .awaitingKey) ∧
    (m.fault ≠ none → m.mode = .halted) ∧
    (m.mode = .halted → ∃ size, m.programSize = some size ∧
      (m.fault ≠ none ↔ programStart ≤ m.pc ∧ m.pc < programStart + size)) ∧
    (m.mode = .running ∨ m.mode = .awaitingKey ∨ m.mode = .paused →
      ∃ size, m.programSize = some size ∧
        (size ≠ 0 → programStart ≤ m.pc ∧ m.pc < programStart + size) ∧
        (size = 0 → m.pc = programStart ∧ (fresh random).executedSinceLoad [] calls = [])) := by
  intro m
  have sound : m.Sound := sound_after random calls
  refine ⟨sound.idle_iff, ?_, sound.halted_of_fault, ?_, ?_⟩
  · have active := sound.resumeTo
    cases resumeTo : m.resumeTo with
    | running => exact .inl rfl
    | awaitingKey => exact .inr rfl
    | idle | paused | halted =>
      rw [resumeTo] at active
      cases active
  · intro halted
    obtain ⟨size, loaded⟩ := sound.exists_size (by simp [halted])
    exact ⟨size, loaded, (sound.fault_iff halted).trans (inProgram_iff_of_size loaded)⟩
  · intro underWay
    have going : m.mode ≠ .idle ∧ m.mode ≠ .halted := by
      rcases underWay with mode | mode | mode <;> simp [mode]
    obtain ⟨size, loaded⟩ := sound.exists_size going.1
    have placed := sound.placed going.1 going.2
    rw [inProgram_iff_of_size loaded, loaded] at placed
    refine ⟨size, loaded, ?_, ?_⟩
    · intro proper
      rcases placed with inside | ⟨empty, -⟩
      · exact inside
      · exact absurd (Option.some.inj empty) proper
    · rintro rfl
      have start : m.pc = programStart := by
        rcases placed with ⟨above, below⟩ | ⟨-, start⟩
        · omega
        · exact start
      exact ⟨start, executedSinceLoad_of_empty (sound_fresh random) (fun _ => rfl) calls loaded⟩

end Machine

end Chip8
