import Chip8.Proofs.Calls
import Chip8.Runner.Schedule

/-!
# What joining reports

A worker reports the fault that its own tick ended in. As long as only ticks of the worker
fail, that is the fault which the machine recorded (`Runner.Agrees`); once a call between two
passes failed, or if the machine came with a fault, the worker finds it halted and reports
nothing (`Runner.Misses`). `join_reports_iff` puts the two together.
-/

namespace Chip8
set_option autoImplicit false

/-- The fault that a call was answered with in place of a cycle, if it was. -/
def Answer.cycleFault : Answer → Option Fault
  | .cycle (.error fault) => some fault
  | _ => none

theorem Answer.cycleFault_eq_some_iff {answer : Answer} {fault : Fault} :
    answer.cycleFault = some fault ↔ answer = .cycle (.error fault) := by
  unfold cycleFault
  split <;> simp_all

namespace Runner

variable {r : Runner} {now : Int}

/-- Joining reports the fault that the machine recorded, and success if there is none. -/
def JoinReports (r : Runner) (now : Int) : Prop :=
  (∀ fault, r.join now = .error fault ↔ r.machine.fault = some fault) ∧
    (r.join now = .ok () ↔ r.machine.fault = none)

/-- The fault that a caller is answered with, if what happens is a call that fails so. -/
def raised (r : Runner) : RunnerEvent → Option Fault
  | .call call => (r.machine.perform call).2.cycleFault
  | _ => none

/-- The faults that callers are answered with in a schedule, in order. -/
def callFaults (r : Runner) : List RunnerEvent → List Fault
  | [] => []
  | event :: rest => (r.raised event).toList ++ (r.perform event).callFaults rest

/-- The worker goes on or ended as the record of the machine has it. -/
def Agrees (r : Runner) : Prop :=
  match r.worker with
  | .working | .ended (.ok ()) => r.machine.fault = none
  | .ended (.error fault) => r.machine.fault = some fault
  | .dead => False

/-- The machine recorded a fault, but the worker goes on or ended without one. -/
def Misses (r : Runner) : Prop :=
  match r.worker with
  | .working | .ended (.ok ()) => r.machine.fault ≠ none
  | _ => False

theorem join_ended {outcome : Except Fault Unit} (h : r.worker = .ended outcome) (now : Int) :
    r.join now = outcome := by
  simp [join, stop, pass, h, Runner.outcome]

theorem Agrees.joinReports (agrees : r.Agrees) (now : Int) : r.JoinReports now := by
  unfold Agrees at agrees
  unfold JoinReports
  split at agrees
  · rename_i working
    simp [join_working r now working, agrees]
  · rename_i ended
    simp [join_ended ended, agrees]
  · rename_i ended
    simp [join_ended ended, agrees]
  · exact agrees.elim

theorem Misses.join (misses : r.Misses) (now : Int) :
    r.join now = .ok () ∧ r.machine.fault ≠ none := by
  unfold Misses at misses
  split at misses
  · rename_i working
    exact ⟨join_working r now working, misses⟩
  · rename_i ended
    exact ⟨join_ended ended now, misses⟩
  · exact misses.elim

/-- What one pass of the worker can do. -/
inductive PassEffect (r : Runner) (now : Int) : Runner → Prop where
  | gone (worker : r.worker ≠ .working) : PassEffect r now r
  | stopped (worker : r.worker = .working) (asked : r.stopRequested = true) :
      PassEffect r now (r.finish (.ok ()))
  | finished (worker : r.worker = .working) (tick : (r.machine.tick now).2 = .ok .halted) :
      PassEffect r now ({ r with machine := (r.machine.tick now).1 }.finish (.ok ()))
  | ticked (worker : r.worker = .working) {cycle : Cycle}
      (tick : (r.machine.tick now).2 = .ok cycle) (going : cycle ≠ .halted) :
      PassEffect r now { r with machine := (r.machine.tick now).1 }
  | failed (worker : r.worker = .working) {fault : Fault}
      (tick : (r.machine.tick now).2 = .error fault) :
      PassEffect r now ({ r with machine := (r.machine.tick now).1 }.finish (.error fault))

theorem pass_effect (r : Runner) (now : Int) : r.PassEffect now (r.pass now) := by
  obtain ⟨machine, worker, asked⟩ := r
  cases worker with
  | ended | dead => exact .gone (by simp)
  | working =>
    cases asked with
    | true => exact .stopped rfl rfl
    | false =>
      cases tick : (machine.tick now).2 with
      | error fault =>
        simp only [pass, Bool.false_eq_true, if_false, tick]
        exact .failed rfl tick
      | ok cycle =>
        simp only [pass, Bool.false_eq_true, if_false, tick]
        cases cycle with
        | halted => exact .finished rfl tick
        | executed | keyReceived | awaitingKey | paused => exact .ticked rfl tick (by simp)

/-- The machine of a runner into which a program was loaded. -/
structure Driven (r : Runner) : Prop where
  sound : r.machine.Sound
  loaded : r.machine.mode ≠ .idle

/-- Whatever happens to a runner happens to its machine by a call, if anything does. -/
theorem machine_perform (r : Runner) (event : RunnerEvent) :
    (r.perform event).machine = r.machine ∨
      ∃ call, (event = .call call ∨ ∃ now, call = .tick now) ∧
        (r.perform event).machine = (r.machine.perform call).1 := by
  cases event with
  | stop => exact .inl rfl
  | call call => exact .inr ⟨call, .inl rfl, rfl⟩
  | pass now =>
    change (r.pass now).machine = _ ∨ ∃ call, _ ∧ (r.pass now).machine = _
    have effect := r.pass_effect now
    generalize r.pass now = after at effect ⊢
    cases effect with
    | gone | stopped => exact .inl rfl
    | finished | ticked | failed => exact .inr ⟨.tick now, .inr ⟨now, rfl⟩, rfl⟩

/-- As long as nothing else is loaded, a runner keeps a loaded machine. -/
theorem Driven.perform (driven : r.Driven) {event : RunnerEvent}
    (other : ∀ program, event ≠ .call (.load program)) : (r.perform event).Driven := by
  rcases r.machine_perform event with same | ⟨call, source, same⟩
  · exact ⟨same ▸ driven.sound, same ▸ driven.loaded⟩
  · have sound := driven.sound.perform call
    have keeps : ∀ program, call ≠ .load program := by
      rintro program rfl
      rcases source with rfl | ⟨now, h⟩
      · exact other program rfl
      · cases h
    have size := Machine.perform_programSize driven.sound keeps
    refine ⟨same ▸ sound, ?_⟩
    rw [same, ne_eq, sound.idle_iff, size]
    exact driven.sound.loaded driven.loaded

theorem tick_fault_of_ok (driven : r.Driven) {cycle : Cycle}
    (tick : (r.machine.tick now).2 = .ok cycle) :
    (r.machine.tick now).1.fault = r.machine.fault := by
  have answer : (r.machine.perform (.tick now)).2 = .cycle (.ok cycle) := congrArg _ tick
  have keeps : ∀ program, Call.tick now ≠ .load program := nofun
  refine Machine.perform_fault_of_ne driven.sound keeps fun fault h => ?_
  cases answer.symm.trans h

theorem tick_fault_of_error (driven : r.Driven) {fault : Fault}
    (tick : (r.machine.tick now).2 = .error fault) :
    r.machine.fault = none ∧ (r.machine.tick now).1.fault = some fault :=
  have answer : (r.machine.perform (.tick now)).2 = .cycle (.error fault) := congrArg _ tick
  Machine.perform_fault_of_eq driven.sound driven.loaded answer

theorem Agrees.pass (agrees : r.Agrees) (driven : r.Driven) (now : Int) : (r.pass now).Agrees := by
  have effect := r.pass_effect now
  generalize r.pass now = after at effect ⊢
  unfold Agrees at *
  cases effect with
  | gone => exact agrees
  | stopped worker =>
    rw [worker] at agrees
    exact agrees
  | finished worker tick =>
    rw [worker] at agrees
    exact (tick_fault_of_ok driven tick).trans agrees
  | ticked worker tick =>
    rw [worker] at agrees ⊢
    exact (tick_fault_of_ok driven tick).trans agrees
  | failed worker tick => exact (tick_fault_of_error driven tick).2

theorem Misses.pass (misses : r.Misses) (driven : r.Driven) (now : Int) : (r.pass now).Misses := by
  have effect := r.pass_effect now
  generalize r.pass now = after at effect ⊢
  unfold Misses at *
  cases effect with
  | gone => exact misses
  | stopped worker =>
    rw [worker] at misses
    exact misses
  | finished worker tick =>
    rw [worker] at misses
    exact fun none => misses ((tick_fault_of_ok driven tick).symm.trans none)
  | ticked worker tick =>
    rw [worker] at misses ⊢
    exact fun none => misses ((tick_fault_of_ok driven tick).symm.trans none)
  | failed worker tick =>
    rw [worker] at misses
    exact misses (tick_fault_of_error driven tick).1

/-- A call whose cycle does not fail keeps the fault of the machine. -/
theorem call_fault_of_none (driven : r.Driven) {call : Call}
    (other : ∀ program, call ≠ .load program) (fine : r.raised (.call call) = none) :
    (r.machine.perform call).1.fault = r.machine.fault := by
  refine Machine.perform_fault_of_ne driven.sound other fun fault failed => ?_
  rw [raised, Answer.cycleFault_eq_some_iff.2 failed] at fine
  cases fine

theorem Agrees.perform (agrees : r.Agrees) (driven : r.Driven) {event : RunnerEvent}
    (other : ∀ program, event ≠ .call (.load program)) (fine : r.raised event = none) :
    (r.perform event).Agrees := by
  cases event with
  | pass now => exact agrees.pass driven now
  | stop => exact agrees
  | call call =>
    have fault := call_fault_of_none driven (fun program h => other program (h ▸ rfl)) fine
    change Agrees { r with machine := (r.machine.perform call).1 }
    unfold Agrees at *
    rwa [fault]

theorem Misses.perform (misses : r.Misses) (driven : r.Driven) {event : RunnerEvent}
    (other : ∀ program, event ≠ .call (.load program)) : (r.perform event).Misses := by
  cases event with
  | pass now => exact misses.pass driven now
  | stop => exact misses
  | call call =>
    change Misses { r with machine := (r.machine.perform call).1 }
    unfold Misses at *
    cases failed : r.raised (.call call) with
    | none =>
      rwa [call_fault_of_none driven (fun program h => other program (h ▸ rfl)) failed]
    | some fault =>
      rw [raised, Answer.cycleFault_eq_some_iff] at failed
      rw [(Machine.perform_fault_of_eq driven.sound driven.loaded failed).2]
      split at misses
      · rename_i working
        simp [working]
      · rename_i ended
        simp [ended]
      · exact misses.elim

/-- From a call that fails on, the worker misses the fault. -/
theorem Agrees.misses (agrees : r.Agrees) (driven : r.Driven) {event : RunnerEvent}
    {fault : Fault} (failed : r.raised event = some fault) : (r.perform event).Misses := by
  cases event with
  | pass | stop => cases failed
  | call call =>
    rw [raised, Answer.cycleFault_eq_some_iff] at failed
    obtain ⟨first, recorded⟩ := Machine.perform_fault_of_eq driven.sound driven.loaded failed
    change Misses { r with machine := (r.machine.perform call).1 }
    unfold Agrees Misses at *
    rw [first] at agrees
    rw [recorded]
    split at agrees
    · rename_i working
      simp [working]
    · rename_i ended
      simp [ended]
    · cases agrees
    · exact agrees.elim

theorem Misses.after {schedule : List RunnerEvent} (misses : r.Misses) (driven : r.Driven)
    (other : ∀ program, .call (.load program) ∉ schedule) : (r.after schedule).Misses := by
  induction schedule generalizing r with
  | nil => exact misses
  | cons event rest ih =>
    have here : ∀ program, event ≠ .call (.load program) := fun program h =>
      other program (h ▸ List.mem_cons_self)
    have later : ∀ program, .call (.load program) ∉ rest := fun program h =>
      other program (List.mem_cons_of_mem _ h)
    exact ih (misses.perform driven here) (driven.perform here) later

/-- A worker that agrees with its machine does so at the end of a schedule if no call in it
fails, and misses the fault otherwise. -/
theorem Agrees.after {schedule : List RunnerEvent} (agrees : r.Agrees) (driven : r.Driven)
    (other : ∀ program, .call (.load program) ∉ schedule) :
    (r.callFaults schedule = [] → (r.after schedule).Agrees) ∧
      (r.callFaults schedule ≠ [] → (r.after schedule).Misses) := by
  induction schedule generalizing r with
  | nil => exact ⟨fun _ => agrees, fun failed => absurd rfl failed⟩
  | cons event rest ih =>
    have here : ∀ program, event ≠ .call (.load program) := fun program h =>
      other program (h ▸ List.mem_cons_self)
    have later : ∀ program, .call (.load program) ∉ rest := fun program h =>
      other program (List.mem_cons_of_mem _ h)
    have driven' := driven.perform here
    cases raised : r.raised event with
    | none =>
      simp only [callFaults, raised, Option.toList_none, List.nil_append]
      exact ih (agrees.perform driven here raised) driven' later
    | some fault =>
      -- The first call that fails settles it: a machine records one fault only.
      have misses := (agrees.misses driven raised).after driven' later
      simp only [callFaults, raised, Option.toList_some, List.singleton_append, ne_eq,
        reduceCtorEq, not_false_eq_true, false_implies, true_implies, true_and]
      exact misses

/-- Joining reports the fault of a loaded machine exactly if the machine had none when it was
handed over and no call between two passes failed. Otherwise the machine has a fault at the
end and joining reports success. -/
theorem join_reports_iff (random : Random) (calls : List Call) (schedule : List RunnerEvent)
    (now : Int) (loaded : ((Machine.fresh random).after calls).mode ≠ .idle)
    (other : ∀ program, .call (.load program) ∉ schedule) :
    let m := (Machine.fresh random).after calls
    let r := (spawn m).after schedule
    (r.JoinReports now ↔ m.fault = none ∧ (spawn m).callFaults schedule = []) ∧
      (¬ r.JoinReports now → r.join now = .ok () ∧ ∃ fault, r.machine.fault = some fault) := by
  intro m r
  have driven : (spawn m).Driven := ⟨Machine.sound_after random calls, loaded⟩
  have either : m.fault = none ∧ (spawn m).callFaults schedule = [] ∧ r.Agrees ∨
      ¬ (m.fault = none ∧ (spawn m).callFaults schedule = []) ∧ r.Misses := by
    by_cases first : m.fault = none
    · have run := Agrees.after (r := spawn m) first driven other
      by_cases fine : (spawn m).callFaults schedule = []
      · exact .inl ⟨first, fine, run.1 fine⟩
      · exact .inr ⟨fun h => fine h.2, run.2 fine⟩
    · exact .inr ⟨fun h => first h.1, Misses.after (r := spawn m) first driven other⟩
  rcases either with ⟨first, fine, agrees⟩ | ⟨failed, misses⟩
  · have reports := agrees.joinReports now
    exact ⟨iff_of_true reports ⟨first, fine⟩, fun silent => absurd reports silent⟩
  · obtain ⟨silent, fault⟩ := misses.join now
    have wrong : ¬ r.JoinReports now := fun reports => fault (reports.2.1 silent)
    exact ⟨iff_of_false wrong failed, fun _ => ⟨silent, Option.ne_none_iff_exists'.1 fault⟩⟩

theorem join_reports_iff_passes :
    let m := (Machine.fresh (.ofSeed 1)).after [.load [0x00, 0xEE]]
    (m.mode ≠ .idle ∧ ∀ program, .call (.load program) ∉ [RunnerEvent.pass 0, .pass 1]) ∧
      ((spawn m).after [.pass 0, .pass 1]).JoinReports 2 := by
  have start : (Machine.fresh (.ofSeed 1)).after [.load [0x00, 0xEE]] =
      (Machine.fresh (.ofSeed 1)).loaded [0x00, 0xEE] := Machine.after_load _ (by decide) _
  have mode : ((Machine.fresh (.ofSeed 1)).after [.load [0x00, 0xEE]]).mode ≠ .idle := by
    rw [start]
    nofun
  have passes : ∀ program, .call (.load program) ∉ [RunnerEvent.pass 0, .pass 1] := by simp
  have reports := join_reports_iff (.ofSeed 1) [.load [0x00, 0xEE]] [.pass 0, .pass 1] 2 mode passes
  refine ⟨⟨mode, passes⟩, reports.1.2 ⟨?_, rfl⟩⟩
  rw [start]
  rfl

/-- The single step of a paused machine that fails: nothing after it makes the worker report
the fault. -/
theorem after_failed_single_step {m : Machine} {fault : Fault} (mode : m.mode = .running)
    (resumeTo : m.resumeTo = .running) (failed : m.step = (m.fail fault, .error fault))
    (now : Int) :
    (spawn m.pause).after [.call .singleStep, .call .resume, .pass now] =
      { machine := { m.fail fault with clock := .rebase now }
        worker := .ended (.ok ())
        stopRequested := false } := by
  have paused : m.pause.mode = .paused := by simp [Machine.pause, mode, Mode.isActive]
  have unpaused : m.pause.withMode m.pause.resumeTo = m := by
    cases m
    cases mode
    cases resumeTo
    rfl
  have single : m.pause.singleStep = (m.fail fault, .error fault) := by
    rw [Machine.singleStep_of_paused paused, unpaused, failed]
    rfl
  have first : (spawn m.pause).perform (.call .singleStep) = spawn (m.fail fault) := by
    change { spawn m.pause with machine := m.pause.singleStep.1 } = _
    rw [single]
    rfl
  have second : (spawn (m.fail fault)).perform (.call .resume) = spawn (m.fail fault) := rfl
  have third : (spawn (m.fail fault)).perform (.pass now) =
      { machine := { m.fail fault with clock := .rebase now }
        worker := .ended (.ok ())
        stopRequested := false } := rfl
  simp only [after, List.foldl_cons, List.foldl_nil, first, second, third]

/-- A fault that a single step in a pause raises is recorded, but the worker only finds the
machine halted, and joining reports success. -/
theorem join_misses_single_step :
    let m := (Machine.fresh (.ofSeed 1)).after [.load [0x50, 0x01], .pause]
    let r := (spawn m).after [.call .singleStep, .call .resume, .pass 0]
    m.mode ≠ .idle ∧ r.worker = .ended (.ok ()) ∧
      r.machine.fault = some (.illegalOpcode 0x5001) ∧ r.join 0 = .ok () ∧ ¬ r.JoinReports 0 := by
  intro m r
  have start : m = ((Machine.fresh (.ofSeed 1)).loaded [0x50, 0x01]).pause :=
    Machine.after_load _ (by decide) _
  have fetch : ((Machine.fresh (.ofSeed 1)).loaded [0x50, 0x01]).fetch =
      .error (.illegalOpcode 0x5001) := Machine.fetch_loaded _ _
  have inside := (Machine.fresh (.ofSeed 1)).inProgram_loaded (List.cons_ne_nil 0x50 [0x01])
  have ended : r = _ :=
    (congrArg (fun m => (spawn m).after _) start).trans
      (after_failed_single_step rfl rfl (Machine.step_of_unfetched rfl inside fetch) 0)
  have worker : r.worker = .ended (.ok ()) := by rw [ended]
  have fault : r.machine.fault = some (.illegalOpcode 0x5001) := by
    rw [ended]
    rfl
  have silent : r.join 0 = .ok () := join_ended worker 0
  refine ⟨?_, worker, fault, silent, ?_⟩
  · rw [start]
    nofun
  · intro reports
    cases fault.symm.trans (reports.2.1 silent)

end Runner

end Chip8
