import Chip8.Fault

/-!
# The call stack

Return addresses of the open calls, at most sixteen of them. `push` fails exactly
on a full stack and `pop` exactly on an empty one.
-/

namespace Chip8
set_option autoImplicit false

/-- Return addresses, the most recent call first. -/
structure CallStack where
  returns : List Nat
deriving DecidableEq

namespace CallStack

/-- How many calls may be open at once. -/
def capacity : Nat := 16

/-- No open calls. -/
def empty : CallStack := ⟨[]⟩

/-- The number of open calls. -/
def size (s : CallStack) : Nat := s.returns.length

/-- The return addresses, the oldest call first. -/
def toList (s : CallStack) : List Nat := s.returns.reverse

/-- Opens a call that will return to `address`. -/
def push (s : CallStack) (address : Nat) : Except Fault CallStack :=
  if s.size < capacity then .ok ⟨address :: s.returns⟩ else .error .stackFull

/-- Closes the most recent call and answers where it returns to. -/
def pop (s : CallStack) : Except Fault (Nat × CallStack) :=
  match s.returns with
  | [] => .error .stackEmpty
  | address :: rest => .ok (address, ⟨rest⟩)

theorem length_toList (s : CallStack) : s.toList.length = s.size := by
  simp [toList, size]

theorem push_eq_ok_iff {s t : CallStack} {address : Nat} :
    s.push address = .ok t ↔ s.size < capacity ∧ t.toList = s.toList ++ [address] := by
  obtain ⟨returns⟩ := t
  unfold push
  split
  · rename_i room
    simp only [room, true_and, toList, Except.ok.injEq, mk.injEq]
    rw [← List.reverse_cons, List.reverse_inj]
    exact eq_comm
  · rename_i full
    simp [full]

theorem pop_eq_ok_iff {s t : CallStack} {address : Nat} :
    s.pop = .ok (address, t) ↔ s.toList = t.toList ++ [address] := by
  obtain ⟨rs⟩ := s
  obtain ⟨ts⟩ := t
  cases rs with
  | nil => simp [pop, toList]
  | cons a rest =>
    simp only [pop, toList, Except.ok.injEq, Prod.mk.injEq, mk.injEq]
    rw [← List.reverse_cons, List.reverse_inj]
    simp

theorem returns_of_push {s t : CallStack} {address : Nat} (h : s.push address = .ok t) :
    s.size < capacity ∧ t.returns = address :: s.returns := by
  unfold push at h
  split at h
  · rename_i room
    cases h
    exact ⟨room, rfl⟩
  · cases h

theorem returns_of_pop {s t : CallStack} {address : Nat} (h : s.pop = .ok (address, t)) :
    s.returns = address :: t.returns := by
  unfold pop at h
  split at h
  · cases h
  · rename_i returns
    cases h
    exact returns

end CallStack

end Chip8
