import Chip8.Proofs.Failure
import Chip8.Proofs.KeyWait

/-!
# Calls and returns nest

Read as brackets (`Machine.brackets`), the calls and returns that a history executes leave some
calls open, each the start of a balanced rest (`LeavesOpen`), and which these are is told by the
brackets alone (`LeavesOpen.unique`). The call stack lists where the open calls return to: a step
keeps that (`perform_nested`), and so does every history after a load (`nested_after`).
-/

namespace Chip8
set_option autoImplicit false

/-- A call or a return that was executed. -/
inductive Bracket where
  /-- The call at this address. -/
  | opened (pc : Nat)
  | closed
deriving DecidableEq

/-- Every call is followed by the return that matches it. -/
inductive Balanced : List Bracket → Prop where
  | nil : Balanced []
  | wrap {inner later : List Bracket} (pc : Nat) (closes : Balanced inner)
      (goesOn : Balanced later) : Balanced (.opened pc :: (inner ++ .closed :: later))

/-- The brackets leave the calls at these addresses open, the oldest call first. -/
inductive LeavesOpen : List Bracket → List Nat → Prop where
  | balanced {brackets : List Bracket} (closes : Balanced brackets) : LeavesOpen brackets []
  | opened {earlier inner : List Bracket} {pcs : List Nat} (leaves : LeavesOpen earlier pcs)
      (pc : Nat) (closes : Balanced inner) :
      LeavesOpen (earlier ++ .opened pc :: inner) (pcs ++ [pc])

/-- The call at this address is the one that a return after these brackets matches. -/
def LastOpen (brackets : List Bracket) (pc : Nat) : Prop :=
  ∃ earlier inner, brackets = earlier ++ .opened pc :: inner ∧ Balanced inner

theorem Balanced.append {brackets more : List Bracket} (closes : Balanced brackets)
    (goesOn : Balanced more) : Balanced (brackets ++ more) := by
  induction closes with
  | nil => exact goesOn
  | wrap pc closes _ _ ih =>
    rw [List.cons_append, List.append_assoc]
    exact .wrap pc closes ih

theorem LeavesOpen.append_balanced {brackets more : List Bracket} {pcs : List Nat}
    (leaves : LeavesOpen brackets pcs) (closes : Balanced more) :
    LeavesOpen (brackets ++ more) pcs := by
  cases leaves with
  | balanced before => exact .balanced (before.append closes)
  | opened leaves pc before =>
    rw [List.append_assoc]
    exact leaves.opened pc (before.append closes)

theorem LeavesOpen.call {brackets : List Bracket} {pcs : List Nat}
    (leaves : LeavesOpen brackets pcs) (pc : Nat) :
    LeavesOpen (brackets ++ [.opened pc]) (pcs ++ [pc]) :=
  leaves.opened pc .nil

/-- The newest of the open calls, and what is open without it. -/
theorem LeavesOpen.exists_last {brackets : List Bracket} {pcs : List Nat} {pc : Nat}
    (leaves : LeavesOpen brackets (pcs ++ [pc])) :
    ∃ earlier inner, brackets = earlier ++ .opened pc :: inner ∧ LeavesOpen earlier pcs ∧
      Balanced inner := by
  generalize all : pcs ++ [pc] = opened at leaves
  cases leaves with
  | balanced => simp at all
  | opened before other closes =>
    obtain ⟨rfl, same⟩ := List.append_inj' all rfl
    cases same
    exact ⟨_, _, rfl, before, closes⟩

theorem LeavesOpen.ret {brackets : List Bracket} {pcs : List Nat} {pc : Nat}
    (leaves : LeavesOpen brackets (pcs ++ [pc])) : LeavesOpen (brackets ++ [.closed]) pcs := by
  obtain ⟨earlier, inner, rfl, before, closes⟩ := leaves.exists_last
  rw [List.append_assoc]
  exact before.append_balanced (.wrap pc closes .nil)

/-- What is open after one more bracket. -/
def Bracket.follow (pcs : List Nat) : Bracket → List Nat
  | .opened pc => pcs ++ [pc]
  | .closed => pcs.dropLast

theorem Balanced.foldl_follow {brackets : List Bracket} (closes : Balanced brackets)
    (pcs : List Nat) : brackets.foldl Bracket.follow pcs = pcs := by
  induction closes generalizing pcs with
  | nil => rfl
  | wrap pc _ _ inner later =>
    rw [List.foldl_cons, List.foldl_append, inner, List.foldl_cons, later]
    exact List.dropLast_concat

theorem LeavesOpen.foldl_follow {brackets : List Bracket} {pcs : List Nat}
    (leaves : LeavesOpen brackets pcs) : brackets.foldl Bracket.follow [] = pcs := by
  induction leaves with
  | balanced closes => exact closes.foldl_follow []
  | opened _ pc closes ih =>
    rw [List.foldl_append, ih, List.foldl_cons, closes.foldl_follow]
    rfl

/-- The brackets tell which calls are open. -/
theorem LeavesOpen.unique {brackets : List Bracket} {pcs other : List Nat}
    (leaves : LeavesOpen brackets pcs) : LeavesOpen brackets other ↔ other = pcs := by
  constructor
  · exact fun leaves' => leaves'.foldl_follow.symm.trans leaves.foldl_follow
  · rintro rfl
    exact leaves

/-- The brackets tell which call a return matches. -/
theorem LeavesOpen.lastOpen_iff {brackets : List Bracket} {pcs : List Nat} {pc other : Nat}
    (leaves : LeavesOpen brackets (pcs ++ [pc])) : LastOpen brackets other ↔ other = pc := by
  constructor
  · rintro ⟨earlier, inner, rfl, closes⟩
    have follows := leaves.foldl_follow
    rw [List.foldl_append, List.foldl_cons, closes.foldl_follow] at follows
    exact (List.cons.inj (List.append_inj' follows rfl).2).1
  · rintro rfl
    obtain ⟨earlier, inner, split, -, closes⟩ := leaves.exists_last
    exact ⟨earlier, inner, split, closes⟩

namespace Machine

/-- The bracket that a call of this machine is, going by what it is answered. -/
def bracket (m : Machine) : Answer → Option Bracket
  | .cycle (.ok (.executed (.call _))) => some (.opened m.pc)
  | .cycle (.ok (.executed .ret)) => some .closed
  | _ => none

/-- The calls and returns that a history executes, in order. -/
def brackets (m : Machine) : List Call → List Bracket
  | [] => []
  | call :: rest =>
    (m.bracket (m.perform call).2).toList ++ (m.perform call).1.brackets rest

/-- What a call does to the call stack, going by what it is answered. -/
def Stacks (m after : Machine) : Answer → Prop
  | .cycle (.ok (.executed (.call _))) => m.stack.push (m.pc + 2) = .ok after.stack
  | .cycle (.ok (.executed .ret)) => m.stack.pop = .ok (after.pc, after.stack)
  | _ => after.stack = m.stack

variable {m after : Machine} {call : Call}

theorem execute_ret_ok {progress : Progress} (h : (m.execute .ret).2 = .ok progress) :
    ∃ address, m.stack.pop = .ok (address, (m.execute .ret).1.stack) ∧
      progress = .jump address := by
  obtain ⟨after, effect⟩ := whole_answer h
  obtain ⟨⟨address, stack⟩, popped, effect⟩ := bind_eq_ok_iff.1 effect
  cases effect
  exact ⟨address, by simp [execute, popped, whole], rfl⟩

theorem execute_call_ok {target : UInt16} {progress : Progress}
    (h : (m.execute (.call target)).2 = .ok progress) :
    m.stack.push (m.pc + 2) = .ok (m.execute (.call target)).1.stack := by
  obtain ⟨after, effect⟩ := whole_answer h
  obtain ⟨stack, pushed, effect⟩ := bind_eq_ok_iff.1 effect
  simp [execute, pushed, whole]

/-- A step opens a call or closes one, or leaves the call stack alone. -/
theorem StepEffect.stacks {outcome : Except Fault Cycle} (effect : m.StepEffect after outcome)
    (sound : m.Sound) : m.Stacks after (.cycle outcome) := by
  cases effect with
  | idle | halted | paused | awaiting | left | unfetched | held => rfl
  | received => exact settled_stack _
  | refused mode inside fetch execute =>
    have effect : m.StepEffect _ _ := .refused mode inside fetch execute
    exact (effect.failed sound (by simp [mode])).stack
  | @executed _ _ i progress pc _ execute _ lands =>
    have stack : ((m.execute i).1.withPc pc).settled.stack = (m.execute i).1.stack :=
      settled_stack _
    have stands : ((m.execute i).1.withPc pc).settled.pc = progress.destination m.pc :=
      (congrArg (fun registers => registers.pc.value) (settled_registers _)).trans lands
    cases i with
    | ret =>
      obtain ⟨address, popped, rfl⟩ := execute_ret_ok execute
      rw [Stacks, stack, stands]
      exact popped
    | call target =>
      rw [Stacks, stack]
      exact execute_call_ok execute
    | _ =>
      rcases m.execute_stack _ with same | ⟨ret, -⟩ | ⟨⟨target, call⟩, -⟩
      · exact stack.trans same
      · cases ret
      · cases call

/-- What a call does to the call stack does not depend on the rest of the machine. -/
theorem stacks_congr {before stepped : Machine} {answer : Answer} (ready : before.work = m.work)
    (done : after.work = stepped.work) (changes : before.Stacks stepped answer) :
    m.Stacks after answer := by
  have stack : before.stack = m.stack := congrArg Work.stack ready
  have pc : before.pc = m.pc := congrArg (fun work => work.pc.value) ready
  have stack' : after.stack = stepped.stack := congrArg Work.stack done
  have pc' : after.pc = stepped.pc := congrArg (fun work => work.pc.value) done
  unfold Stacks at *
  rw [stack', pc', ← stack, ← pc]
  exact changes

/-- Whatever is called, the call stack changes as the answer says. -/
theorem Sound.stacks (sound : m.Sound) (stays : ¬ call.isLoad) :
    m.Stacks (m.perform call).1 (m.perform call).2 := by
  by_cases steps : ∃ outcome, (m.perform call).2 = .cycle outcome
  -- The step may be made of a machine that was synchronised or resumed first, and be followed by
  -- a pause.
  · obtain ⟨outcome, steps⟩ := steps
    obtain ⟨before, ready, answered, after⟩ := exists_step sound steps
    have work : (m.perform call).1.work = before.step.1.work := by
      rcases after with after | after
      · rw [after]
      · rw [after, pause_work]
    rw [steps, ← answered]
    exact stacks_congr ready.work work ((step_effect ready.sound).stacks ready.sound)
  · have other : ∀ program, call ≠ .load program := by
      rintro program rfl
      exact stays rfl
    have work := perform_work other fun outcome answered => steps ⟨outcome, answered⟩
    have stack : (m.perform call).1.stack = m.stack := congrArg Work.stack work
    cases answered : (m.perform call).2 with
    | cycle outcome => exact absurd ⟨outcome, answered⟩ steps
    | done | frame => exact stack

/-- The call stack lists where the calls that the brackets leave open return to. -/
structure Nested (m : Machine) (brackets : List Bracket) (pcs : List Nat) : Prop where
  leaves : LeavesOpen brackets pcs
  stack : m.stack.toList = pcs.map (· + 2)

/-- A return that is executed closes the newest of the open calls. -/
theorem Nested.closes {brackets : List Bracket} {pcs : List Nat} (nested : m.Nested brackets pcs)
    {address : Nat} (popped : m.stack.pop = .ok (address, after.stack)) :
    ∃ earlier pc, pcs = earlier ++ [pc] ∧ address = pc + 2 ∧
      after.Nested (brackets ++ [.closed]) earlier := by
  have stack := CallStack.pop_eq_ok_iff.1 popped
  rw [nested.stack] at stack
  obtain ⟨earlier, last, rfl, older, newest⟩ := List.map_eq_append_iff.1 stack
  obtain ⟨pc, rfl, rfl⟩ := List.map_eq_singleton_iff.1 newest
  exact ⟨earlier, pc, rfl, rfl, nested.leaves.ret, older.symm⟩

/-- A call that is executed is the newest of the open calls. -/
theorem Nested.opens {brackets : List Bracket} {pcs : List Nat} (nested : m.Nested brackets pcs)
    {pc : Nat} (pushed : m.stack.push (pc + 2) = .ok after.stack) :
    after.Nested (brackets ++ [.opened pc]) (pcs ++ [pc]) := by
  refine ⟨nested.leaves.call pc, ?_⟩
  rw [(CallStack.push_eq_ok_iff.1 pushed).2, nested.stack, List.map_append]
  rfl

/-- Every call but a load keeps the call stack and the brackets together. -/
theorem Nested.perform {brackets : List Bracket} {pcs : List Nat} (nested : m.Nested brackets pcs)
    (sound : m.Sound) (stays : ¬ call.isLoad) :
    ∃ pcs', (m.perform call).1.Nested (brackets ++ (m.bracket (m.perform call).2).toList) pcs' := by
  have changes := sound.stacks stays
  generalize (m.perform call).1 = after, (m.perform call).2 = answer at changes ⊢
  unfold Stacks at changes
  unfold bracket
  split at changes
  · exact ⟨_, nested.opens changes⟩
  · obtain ⟨earlier, -, -, -, nested⟩ := nested.closes changes
    exact ⟨earlier, nested⟩
  · refine ⟨pcs, ?_⟩
    rw [Option.toList_none, List.append_nil]
    exact ⟨nested.leaves, changes ▸ nested.stack⟩

theorem Nested.history {brackets : List Bracket} {pcs : List Nat} {calls : List Call}
    (nested : m.Nested brackets pcs) (sound : m.Sound) (stays : ∀ call ∈ calls, ¬ call.isLoad) :
    ∃ pcs', (m.after calls).Nested (brackets ++ m.brackets calls) pcs' := by
  induction calls generalizing m brackets pcs with
  | nil => exact ⟨pcs, (List.append_nil _).symm ▸ nested⟩
  | cons call rest ih =>
    obtain ⟨here, later⟩ := List.forall_mem_cons.1 stays
    obtain ⟨between, nested⟩ := nested.perform sound here
    obtain ⟨pcs', nested⟩ := ih nested (sound.perform call) later
    rw [List.append_assoc] at nested
    exact ⟨pcs', nested⟩

theorem Nested.length {brackets : List Bracket} {pcs : List Nat}
    (nested : m.Nested brackets pcs) : m.stack.size = pcs.length := by
  rw [← CallStack.length_toList, nested.stack, List.length_map]

/-- A call of the machine comes to an instruction and tries to execute it. -/
structure Attempts (m : Machine) (call : Call) (i : Instruction) : Prop where
  looks : call.looks m.isPaused
  running : (if m.isPaused then m.resumeTo else m.mode) = .running
  inside : m.InProgram
  fetch : m.fetch = .ok i

/-- An attempt is answered as the instruction succeeds or is refused. -/
theorem Attempts.answer {i : Instruction} (attempts : m.Attempts call i) (sound : m.Sound) :
    ∃ before : Machine, before.work = m.work ∧
      (m.perform call).2 = .cycle ((before.execute i).2.map fun _ => .executed i) := by
  obtain ⟨before, ready, work, -, mode, performed⟩ := exists_step_of_looks sound attempts.looks
  have inside := (inProgram_congr (pc_of_work work) (programSize_of_work work)).2 attempts.inside
  have fetch := (fetch_of_work work).trans attempts.fetch
  refine ⟨before, work, ?_⟩
  rw [performed, step_answer_of_fetch ready (mode.trans attempts.running) inside fetch]

theorem execute_call_answer (m : Machine) (target : UInt16) :
    (m.execute (.call target)).2.map (fun _ => Cycle.executed (.call target)) =
      if m.stack.size < CallStack.capacity then .ok (.executed (.call target))
      else .error .stackFull := by
  simp only [execute, whole_snd, CallStack.push]
  split <;> rfl

theorem execute_ret_answer (m : Machine) :
    (m.execute .ret).2.map (fun _ => Cycle.executed .ret) =
      if m.stack.size = 0 then .error .stackEmpty else .ok (.executed .ret) := by
  cases returns : m.stack.returns <;>
    simp [execute, whole_snd, CallStack.pop, CallStack.size, returns, Except.map]

/-- Calls and returns nest. At every point after a load, the call stack lists where the calls
return to that are still open, of which there are at most sixteen, the oldest first. A return
goes behind the call that it matches and takes this entry alone, a call is refused exactly if
sixteen are open, a return exactly if none is, and what is refused leaves the call stack as it
was. -/
theorem calls_nest (m₀ loaded : Machine) (program : List UInt8) (calls : List Call)
    (load : m₀.load program = .ok loaded) (stays : ∀ call ∈ calls, ¬ call.isLoad) :
    let m := loaded.after calls
    let brackets := loaded.brackets calls
    ∃ pcs, (∀ other, LeavesOpen brackets other ↔ other = pcs) ∧
      m.stack.toList = pcs.map (· + 2) ∧ pcs.length ≤ 16 ∧
      ∀ call : Call, ¬ call.isLoad →
        let after := (m.perform call).1
        let answer := (m.perform call).2
        (answer = .cycle (.ok (.executed .ret)) → ∃ earlier pc, pcs = earlier ++ [pc] ∧
          (∀ other, LastOpen brackets other ↔ other = pc) ∧ after.pc = pc + 2 ∧
          after.stack.toList = earlier.map (· + 2)) ∧
        (∀ target, m.Attempts call (.call target) → answer = .cycle
          (if pcs.length = 16 then .error .stackFull else .ok (.executed (.call target)))) ∧
        (m.Attempts call .ret → answer = .cycle
          (if pcs.length = 0 then .error .stackEmpty else .ok (.executed .ret))) ∧
        ∀ fault, answer = .cycle (.error fault) → after.stack = m.stack := by
  intro m brackets
  obtain ⟨fits, rfl⟩ := load_eq_ok_iff.1 load
  have sound := m₀.sound_loaded fits
  have start : (m₀.loaded program).Nested [] [] := ⟨.balanced .nil, rfl⟩
  obtain ⟨pcs, nested⟩ : ∃ pcs, m.Nested brackets pcs := start.history sound stays
  have sound : m.Sound := sound.history calls
  have room : pcs.length ≤ 16 := nested.length ▸ sound.calls
  refine ⟨pcs, fun other => nested.leaves.unique, nested.stack, room, fun call stays => ?_⟩
  intro after answer
  have changes : m.Stacks after answer := sound.stacks stays
  refine ⟨fun executed => ?_, fun target attempts => ?_, fun attempts => ?_, fun fault failed => ?_⟩
  · rw [executed] at changes
    obtain ⟨earlier, pc, rfl, returns, left⟩ := nested.closes changes
    exact ⟨earlier, pc, rfl, fun other => nested.leaves.lastOpen_iff, returns, left.stack⟩
  · obtain ⟨before, ready, answered⟩ := attempts.answer sound
    have stack : before.stack = m.stack := congrArg Work.stack ready
    rw [show answer = _ from answered, execute_call_answer, stack, nested.length]
    by_cases full : pcs.length = 16
    · rw [if_pos full, full, if_neg (by decide)]
    · have below : pcs.length < CallStack.capacity := Nat.lt_of_le_of_ne room full
      rw [if_neg full, if_pos below]
  · obtain ⟨before, ready, answered⟩ := attempts.answer sound
    have stack : before.stack = m.stack := congrArg Work.stack ready
    rw [show answer = _ from answered, execute_ret_answer, stack, nested.length]
  · rw [failed] at changes
    exact changes

/-- A call that is executed inside a program. -/
theorem Placed.step_call {program : List UInt8} {offset : Nat} {returns : List Nat}
    (placed : m.Placed program offset) (address : UInt16) (target : Nat)
    (fetch : m.fetch = .ok (.call address)) (stack : m.stack = ⟨returns⟩)
    (room : returns.length < CallStack.capacity) (lands : address.toNat = programStart + target)
    (inside : target + 1 < program.length) :
    ∃ next, m.step = (next, .ok (.executed (.call address))) ∧ next.Placed program target ∧
      next.stack = ⟨(m.pc + 2) :: returns⟩ := by
  have pushed : m.stack.push (m.pc + 2) = .ok ⟨(m.pc + 2) :: returns⟩ := by
    rw [stack]
    exact if_pos room
  have execute : m.execute (.call address) =
      ({ m with stack := ⟨(m.pc + 2) :: returns⟩ }, .ok (.jump address.toNat)) := by
    simp [execute, pushed, whole]
  have moves : Progress.jump address.toNat ≠ .hold := by simp
  obtain ⟨next, step, placed, pc, rfl⟩ := placed.step target fetch execute moves rfl lands inside
  exact ⟨_, step, placed, rfl⟩

/-- A return that is executed inside a program. -/
theorem Placed.step_ret {program : List UInt8} {offset : Nat} {returns : List Nat}
    (placed : m.Placed program offset) (target : Nat) (fetch : m.fetch = .ok .ret)
    (stack : m.stack = ⟨(programStart + target) :: returns⟩)
    (inside : target + 1 < program.length) :
    ∃ next, m.step = (next, .ok (.executed .ret)) ∧ next.Placed program target ∧
      next.stack = ⟨returns⟩ := by
  have execute : m.execute .ret =
      ({ m with stack := ⟨returns⟩ }, .ok (.jump (programStart + target))) := by
    simp [execute, stack, CallStack.pop, whole]
  have moves : Progress.jump (programStart + target) ≠ .hold := by simp
  obtain ⟨next, step, placed, pc, rfl⟩ := placed.step target fetch execute moves rfl rfl inside
  exact ⟨_, step, placed, rfl⟩

/-- A program whose first call leads to a second; behind each call, and where the second leads
to, stands a return. -/
def callProgram : List UInt8 := [0x22, 0x04, 0x00, 0xEE, 0x22, 0x08, 0x00, 0xEE, 0x00, 0xEE]

/-- Both calls are executed and then both returns, which lead to one return more. -/
theorem run_callProgram (start : m.Placed callProgram 0) (empty : m.stack = .empty) :
    m.brackets [.step, .step, .step] = [.opened 0x200, .opened 0x204, .closed] ∧
      ((m.after [.step, .step, .step]).perform .step).2 = .cycle (.ok (.executed .ret)) ∧
      m.brackets [.step, .step, .step, .step] =
        [.opened 0x200, .opened 0x204, .closed, .closed] ∧
      (m.after [.step, .step, .step, .step]).Placed callProgram 2 := by
  obtain ⟨inner, step₁, placed₁, stack₁⟩ := start.step_call 0x204 4 start.fetch empty
    (by decide) rfl (by decide)
  rw [start.pc] at stack₁
  obtain ⟨deepest, step₂, placed₂, stack₂⟩ := placed₁.step_call 0x208 8 placed₁.fetch stack₁
    (by decide) rfl (by decide)
  rw [placed₁.pc] at stack₂
  obtain ⟨back, step₃, placed₃, stack₃⟩ := placed₂.step_ret 6 placed₂.fetch stack₂ (by decide)
  obtain ⟨out, step₄, placed₄, -⟩ := placed₃.step_ret 2 placed₃.fetch stack₃ (by decide)
  simp only [brackets, bracket, after_cons, after_nil, perform, step₁, step₂, step₃, step₄,
    start.pc, placed₁.pc]
  exact ⟨rfl, trivial, rfl, placed₄⟩

/-- The second call is the first to be closed, so the second return goes behind the first call.
The return after that is refused. -/
theorem calls_nest_callProgram :
    let m₀ := fresh (.ofSeed 0)
    let m := m₀.loaded callProgram
    m₀.load callProgram = .ok m ∧ (∀ call ∈ [Call.step, .step, .step, .step], ¬ call.isLoad) ∧
      m.brackets [.step, .step, .step] = [.opened 0x200, .opened 0x204, .closed] ∧
      (m.after [.step, .step, .step]).stack.toList = [0x202] ∧
      ((m.after [.step, .step, .step]).perform .step).2 = .cycle (.ok (.executed .ret)) ∧
      LastOpen (m.brackets [.step, .step, .step]) 0x200 ∧
      ((m.after [.step, .step, .step]).perform .step).1.pc = 0x202 ∧
      (m.after [.step, .step, .step, .step]).stack.toList = [] ∧
      ((m.after [.step, .step, .step, .step]).perform .step).2 = .cycle (.error .stackEmpty) ∧
      ((m.after [.step, .step, .step, .step]).perform .step).1.stack.toList = [] := by
  intro m₀ m
  have load : m₀.load callProgram = .ok m := load_eq_ok_iff.2 ⟨by decide, rfl⟩
  have stays : ∀ call ∈ [Call.step, .step, .step, .step], ¬ call.isLoad := by simp [Call.isLoad]
  have start : m.Placed callProgram 0 := m₀.placed_loaded (by decide) (by decide)
  obtain ⟨brackets₃, returned, brackets₄, placed⟩ := run_callProgram start rfl
  have first : LeavesOpen [.opened 0x200] ([] ++ [0x200]) := .call (.balanced .nil) 0x200
  have leaves₃ : LeavesOpen [.opened 0x200, .opened 0x204, .closed] ([] ++ [0x200]) :=
    (first.call 0x204).ret
  have leaves₄ : LeavesOpen [.opened 0x200, .opened 0x204, .closed, .closed] [] := leaves₃.ret
  have attempts : (m.after [.step, .step, .step, .step]).Attempts .step .ret := by
    have awake : (m.after [.step, .step, .step, .step]).isPaused = false := by
      rw [isPaused, placed.mode]
      rfl
    refine ⟨?_, ?_, placed.inProgram, placed.fetch⟩
    · rw [awake]
      rfl
    · rw [awake, if_neg Bool.false_ne_true, placed.mode]
  obtain ⟨pcs, opened, stack, -, next⟩ := calls_nest m₀ m callProgram [.step, .step, .step] load
    fun call among => stays call (List.mem_cons_of_mem _ among)
  rw [brackets₃] at opened next
  obtain rfl := (opened _).1 leaves₃
  obtain ⟨earlier, pc, split, last, goes, -⟩ := (next .step (by decide)).1 returned
  obtain ⟨rfl, one⟩ := List.append_inj' split rfl
  cases one
  obtain ⟨pcs, opened, stack', -, next⟩ := calls_nest m₀ m callProgram _ load stays
  rw [brackets₄] at opened
  obtain rfl := (opened _).1 leaves₄
  obtain ⟨-, -, refuses, keeps⟩ := next .step (by decide)
  have refused := refuses attempts
  refine ⟨load, stays, brackets₃, stack, returned, ?_, goes, stack', refused, ?_⟩
  · rw [brackets₃]
    exact (last 0x200).2 rfl
  · exact (congrArg CallStack.toList (keeps _ refused)).trans stack'

end Machine

end Chip8
