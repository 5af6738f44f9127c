import Chip8.Machine.Operation
import Chip8.Proofs.Calls
import Chip8.Proofs.Setting

/-!
# A renderer is never stale

Whatever is done to a machine either leaves its frame alone or marks it as stale (`Frame.Marks`),
deep inside an instruction as well as from outside; to take a copy is the only exception. So as
long as the frame is not marked, the copy handed out last shows what the frame shows
(`Machine.Shown`): an operation keeps that (`Shown.operate`), and so does any number of them
(`Shown.operated`). No invariant of the rest of the machine is needed.
-/

namespace Chip8
set_option autoImplicit false

namespace Frame

/-- The frame afterwards is the one before, or it is marked as stale. -/
def Marks (before after : Frame) : Prop := after = before ∨ after.stale = true

theorem Marks.refl (f : Frame) : f.Marks f := .inl rfl

theorem marks_set (f : Frame) (x y : Nat) (on : Bool) : f.Marks (f.set x y on) := by
  unfold set
  split
  · exact .inl rfl
  · exact .inr rfl

theorem marks_clear (f : Frame) : f.Marks f.clear := .inr rfl

theorem marks_invertPoints (f : Frame) (points : List (Nat × Nat)) :
    f.Marks (invertPoints f points).2 := by
  cases points with
  | nil => exact .inl rfl
  | cons point rest => exact .inr (stale_foldl_invertPoint _ rest (by simp [Screen.write, set]))

end Frame

namespace Machine

variable {m after : Machine}

/-- Only two instructions touch the frame. -/
theorem execute_marks (m : Machine) (i : Instruction) : m.frame.Marks (m.execute i).1.frame := by
  cases i with
  | clear => exact m.frame.marks_clear
  | draw x y rows =>
    refine whole_of (P := fun after => m.frame.Marks after.frame) (.refl _) ?_
    intro after progress h
    obtain ⟨⟨collision, drawn⟩, painted, h⟩ := bind_eq_ok_iff.1 h
    obtain ⟨across, -, painted⟩ := bind_eq_ok_iff.1 painted
    obtain ⟨down, -, painted⟩ := bind_eq_ok_iff.1 painted
    obtain ⟨sprite, -, painted⟩ := bind_eq_ok_iff.1 painted
    cases painted
    cases h
    exact m.frame.marks_invertPoints _
  | system | ret | jump | call | skip | set | increase | arithmetic | setIndex | jumpOffset
  | random | readDelay | awaitKey | setDelay | setSound | increaseIndex | pointGlyph
  | storeDecimal | storeRegisters | loadRegisters =>
    exact .inl ((m.execute_spares _).frame (by simp) (by simp))

/-! ## Steps of any machine, sound or not -/

theorem instructionCycle_marks (m : Machine) : m.frame.Marks m.instructionCycle.1.frame := by
  cases fetch : m.fetch with
  | error fault => exact .inl (by rw [instructionCycle, fetch])
  | ok i =>
    rw [instructionCycle_of_fetch fetch]
    cases (m.execute i).2 with
    | error fault => exact m.execute_marks i
    | ok progress =>
      dsimp only
      rw [(conclude_movesOn _ _ _).1.frame]
      exact m.execute_marks i

theorem runCycle_marks (m : Machine) : m.frame.Marks m.runCycle.1.frame := by
  unfold runCycle
  split
  · exact .refl _
  · exact .refl _
  · exact m.instructionCycle_marks

theorem step_marks (m : Machine) : m.frame.Marks m.step.1.frame := by
  unfold step
  cases m.mode with
  | idle | halted | paused => exact .refl _
  | awaitingKey =>
    obtain ⟨_, _, moves, -⟩ := m.keyCycle_movesOn
    exact .inl ((guard_movesOn _).frame.trans moves.frame)
  | running =>
    dsimp only
    rw [(guard_movesOn _).frame]
    exact m.runCycle_marks

/-! ## Operations -/

theorem pause_frame (m : Machine) : m.pause.frame = m.frame := by
  unfold pause
  split <;> rfl

theorem resume_frame (m : Machine) : m.resume.frame = m.frame := by
  unfold resume
  split <;> rfl

theorem syncTimers_frame (m : Machine) (now : Int) : (m.syncTimers now).frame = m.frame := by
  unfold syncTimers
  split <;> rfl

theorem singleStep_marks (m : Machine) : m.frame.Marks m.singleStep.1.frame := by
  by_cases paused : m.mode = .paused
  · rw [singleStep_of_paused paused, pause_frame]
    exact (m.withMode m.resumeTo).step_marks
  · rw [singleStep_of_not_paused paused]
    exact m.step_marks

/-- A change that may be refused marks the frame if it does when it is made. -/
theorem attempt_marks {change : Except Fault Machine}
    (marks : ∀ after, change = .ok after → m.frame.Marks after.frame) :
    m.frame.Marks (m.attempt change).1.frame :=
  attempt_of (P := fun after => m.frame.Marks after.frame) (.refl _) marks

theorem perform_marks (m : Machine) {call : Call} (other : call ≠ .takeFrame) :
    m.frame.Marks (m.perform call).1.frame := by
  cases call with
  | load program =>
    refine attempt_marks fun after load => .inr ?_
    obtain ⟨-, rfl⟩ := load_eq_ok_iff.1 load
    rfl
  | step => exact m.step_marks
  | singleStep => exact m.singleStep_marks
  | tick now =>
    have marks := (m.syncTimers now).step_marks
    rwa [syncTimers_frame] at marks
  | syncTimers now => exact .inl (m.syncTimers_frame now)
  | pause => exact .inl m.pause_frame
  | resume => exact .inl m.resume_frame
  | press key | release key =>
    refine attempt_marks fun after done => .inl ?_
    obtain ⟨keypad, -, done⟩ := bind_eq_ok_iff.1 done
    cases done
    rfl
  | takeFrame => exact absurd rfl other

/-- Whatever changes the frame marks it as stale, to take a copy apart. -/
theorem operate_marks (m : Machine) {operation : Operation}
    (other : operation ≠ .call .takeFrame) : m.frame.Marks (m.operate operation).frame := by
  cases operation with
  | call call => exact m.perform_marks fun same => other (congrArg Operation.call same)
  | execute i => exact m.execute_marks i
  | setRegister | setIndex | setPc =>
    exact changeRegisters_of (P := fun after => m.frame.Marks after.frame) (.refl _)
      fun _ _ => .refl _
  | setFlag | setDelay | setSound | decay | key => exact .refl _
  | write | push | pop =>
    refine attempt_marks fun after done => .inl ?_
    obtain ⟨_, -, rfl⟩ := map_eq_ok_iff.1 done
    rfl
  | loadImage program =>
    refine attempt_marks fun after done => .inl ?_
    obtain ⟨memory, -, done⟩ := bind_eq_ok_iff.1 done
    cases done
    rfl
  | setPoint x y on => exact m.frame.marks_set x y on
  | clear => exact m.frame.marks_clear
  | paint x y sprite => exact m.frame.marks_invertPoints _

theorem copied_of_ne (m : Machine) {operation : Operation}
    (other : operation ≠ .call .takeFrame) : m.copied operation = none := by
  unfold copied
  split
  · exact absurd rfl other
  · rfl

/-- Unless the frame is marked as stale, the copy handed out last shows the points there are. -/
def Shown (copies : List Frame) (m : Machine) : Prop :=
  m.frame.stale = false → ∃ copy, copies.getLast? = some copy ∧ copy.points = m.frame.points

variable {copies : List Frame}

/-- A copy shows the points there are, and with it the frame is up to date. -/
theorem takeFrame_of_stale (stale : m.frame.stale = true) :
    m.takeFrame = (some { m.frame with stale := false },
      { m with frame := { m.frame with stale := false } }) := by
  simp [takeFrame, Frame.take, stale]

theorem takeFrame_of_not_stale (clean : m.frame.stale = false) : m.takeFrame = (none, m) := by
  simp [takeFrame, Frame.take, clean]

theorem Shown.takeFrame (shown : m.Shown copies) :
    m.takeFrame.2.Shown (copies ++ m.takeFrame.1.toList) := by
  cases stale : m.frame.stale with
  | true =>
    rw [takeFrame_of_stale stale]
    exact fun _ => ⟨_, List.getLast?_concat, rfl⟩
  | false =>
    rw [takeFrame_of_not_stale stale, Option.toList_none, List.append_nil]
    exact shown

theorem Shown.operate (shown : m.Shown copies) (operation : Operation) :
    (m.operate operation).Shown (copies ++ (m.copied operation).toList) := by
  -- Only to take a copy unmarks the frame, and then the copy is the last one handed out.
  by_cases taken : operation = .call .takeFrame
  · subst taken
    exact shown.takeFrame
  · rw [m.copied_of_ne taken, Option.toList_none, List.append_nil]
    intro clean
    rcases m.operate_marks taken with same | stale
    · rw [same] at clean ⊢
      exact shown clean
    · rw [stale] at clean
      cases clean

theorem Shown.operated (shown : m.Shown copies) (operations : List Operation) :
    (m.operated operations).Shown (copies ++ m.copies operations) := by
  induction operations generalizing m copies with
  | nil =>
    rw [Machine.copies, List.append_nil]
    exact shown
  | cons operation rest ih =>
    rw [Machine.copies, ← List.append_assoc]
    exact ih (shown.operate operation)

/-- What a copy is that is taken now, or where it was handed out if there is none. -/
theorem Shown.current (shown : m.Shown copies) :
    (∀ copy rest, m.takeFrame = (some copy, rest) →
      copy = { points := m.frame.points, stale := false } ∧ rest = { m with frame := copy }) ∧
    ∀ rest, m.takeFrame = (none, rest) → rest = m ∧
      ∃ copy, copies.getLast? = some copy ∧ copy.points = m.frame.points := by
  cases stale : m.frame.stale with
  | true =>
    rw [takeFrame_of_stale stale]
    refine ⟨fun copy rest taken => ?_, fun rest taken => ?_⟩
    · obtain ⟨handed, left⟩ := Prod.mk.inj taken
      rw [← left, ← Option.some.inj handed]
      exact ⟨rfl, rfl⟩
    · exact absurd (Prod.mk.inj taken).1 (Option.some_ne_none _)
  | false =>
    rw [takeFrame_of_not_stale stale]
    refine ⟨fun copy rest taken => ?_, fun rest taken => ?_⟩
    · exact absurd (Prod.mk.inj taken).1.symm (Option.some_ne_none copy)
    · exact ⟨(Prod.mk.inj taken).2.symm, shown stale⟩

/-- Whatever is done to a machine with a new frame, a copy that is taken then shows exactly the
points of the frame, and neither is stale. If none is handed out, one was before, and the last one
handed out shows exactly the points of the frame. -/
theorem copies_current (m : Machine) (new : m.frame = .blank) (operations : List Operation) :
    let after := m.operated operations
    (∀ copy rest, after.takeFrame = (some copy, rest) →
      copy = { points := after.frame.points, stale := false } ∧
        rest = { after with frame := copy }) ∧
    ∀ rest, after.takeFrame = (none, rest) → rest = after ∧
      ∃ copy, (m.copies operations).getLast? = some copy ∧ copy.points = after.frame.points := by
  have start : m.Shown [] := fun clean => by
    rw [new] at clean
    cases clean
  exact (start.operated operations).current

/-- A point that is off is turned off, one screen to the right and one down: the copy taken before
still shows what there is. -/
theorem copies_current_unset :
    let m := fresh (.ofSeed 0)
    let operations := [.call .takeFrame, .setPoint 70 33 false]
    m.frame = .blank ∧ (m.operated operations).takeFrame.1 = none ∧
      ∃ copy, (m.copies operations).getLast? = some copy ∧
        copy.points = (m.operated operations).frame.points := by
  intro m operations
  have unset : (m.operated operations).frame.stale = false := by
    have taken : m.takeFrame = _ := takeFrame_of_stale rfl
    simp only [operations, operated_cons, operated_nil, operate, perform, taken]
    simp [m, fresh, Frame.set, Frame.get, Frame.blank]
  have none : (m.operated operations).takeFrame = _ := takeFrame_of_not_stale unset
  have current := (copies_current m rfl operations).2 _ none
  exact ⟨rfl, congrArg Prod.fst none, current.2⟩

end Machine

end Chip8
