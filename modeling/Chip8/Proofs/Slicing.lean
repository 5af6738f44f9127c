import Mathlib.Algebra.Ring.Nat
import Chip8.Clock

/-!
# However time is sliced

A clock that is asked at one instant after another answers, all in all, with the whole periods from
the first of them to the latest (`periodsIn`), however they are ordered: the baseline moves on by
whole periods only, so what is left of one is counted later (`sync_asked`). Over a history of
questions the answers therefore add up to what a single question would have been answered
(`sum_answers`), and the baseline stays within a period of the latest instant (`slicing`).
-/

namespace Chip8
set_option autoImplicit false

namespace Clock

/-- The latest of the instants. -/
def latest (start : Int) (later : List Int) : Int := later.foldl max start

/-- The whole periods from the first of the instants to the latest. -/
def periodsIn : List Int → Nat
  | [] => 0
  | start :: later => (latest start later - start).toNat / period

/-- The clock once it was asked at these instants. -/
def asked : List Int → Clock
  | [] => stopped
  | start :: later => rebase (start + period * periodsIn (start :: later))

theorem latest_concat (start : Int) (later : List Int) (now : Int) :
    latest start (later ++ [now]) = max (latest start later) now := by
  simp [latest]

/-- One more instant counts as far as it lies after all others. -/
theorem periodsIn_concat (start : Int) (later : List Int) (now : Int) :
    periodsIn (start :: later ++ [now]) =
      max (periodsIn (start :: later)) ((now - start).toNat / period) := by
  simp only [List.cons_append, periodsIn, latest_concat]
  rcases Int.le_total now (latest start later) with early | late
  · have counted : (now - start).toNat / period ≤ (latest start later - start).toNat / period :=
      Nat.div_le_div_right (by omega)
    rw [Int.max_eq_left early, Nat.max_eq_left counted]
  · have counted : (latest start later - start).toNat / period ≤ (now - start).toNat / period :=
      Nat.div_le_div_right (by omega)
    rw [Int.max_eq_right late, Nat.max_eq_right counted]

theorem periodsIn_le_append (instants more : List Int) :
    periodsIn instants ≤ periodsIn (instants ++ more) := by
  induction more generalizing instants with
  | nil => simp
  | cons now rest ih =>
    have one : periodsIn instants ≤ periodsIn (instants ++ [now]) := by
      cases instants with
      | nil => exact Nat.zero_le _
      | cons start later =>
        rw [periodsIn_concat]
        exact Nat.le_max_left ..
    rw [show instants ++ now :: rest = instants ++ [now] ++ rest by simp]
    exact Nat.le_trans one (ih _)

/-- Of the periods up to an instant, those are left to count that the baseline did not pass. -/
theorem toNat_sub_counted (span : Int) (counted : Nat) :
    (span - period * counted).toNat / period = span.toNat / period - counted := by
  have shifted : (span - (period * counted : Nat)).toNat = span.toNat - period * counted := by
    omega
  rw [← Int.natCast_mul, shifted]
  exact Nat.sub_mul_div ..

/-- Asked at one more instant, the clock answers with the periods that were not counted yet. -/
theorem sync_asked {instants : List Int} {now : Int}
    (few : periodsIn (instants ++ [now]) ≤ greatestCount) :
    (asked instants).sync now =
      (periodsIn (instants ++ [now]) - periodsIn instants, asked (instants ++ [now])) := by
  cases instants with
  | nil => simp [asked, sync_stopped, periodsIn, latest]
  | cons start later =>
    have counted := periodsIn_le_append (start :: later) [now]
    -- The baseline moves on by whole periods only, so what is left of one is counted later.
    have fresh : periodsBetween (start + period * periodsIn (start :: later)) now =
        periodsIn (start :: later ++ [now]) - periodsIn (start :: later) := by
      rw [periodsIn_concat] at few ⊢
      rw [periodsBetween, ← Int.sub_sub, toNat_sub_counted]
      omega
    rw [asked, sync_rebase, fresh, Int.add_assoc, ← Int.mul_add, ← Int.natCast_add,
      Nat.add_sub_cancel' counted]
    rfl

/-- What is done to a clock. -/
inductive Use where
  /-- Time is counted from an instant on. -/
  | rebase (now : Int)
  /-- The baseline is dropped. -/
  | stop
  /-- The clock is asked at an instant. -/
  | sync (now : Int)

/-- The clock after something was done to it. -/
def use (c : Clock) : Use → Clock
  | .rebase now => rebase now
  | .stop => stopped
  | .sync now => (c.sync now).2

/-- The clock after a history. -/
def used (c : Clock) (uses : List Use) : Clock := uses.foldl use c

/-- The periods that the questions of a history are answered with, in order. -/
def answers (c : Clock) : List Use → List Nat
  | [] => []
  | .sync now :: rest => (c.sync now).1 :: (c.sync now).2.answers rest
  | other :: rest => (c.use other).answers rest

/-- The answers to some questions add up to the periods that were not counted before. -/
theorem sum_answers {instants later : List Int}
    (few : periodsIn (instants ++ later) ≤ greatestCount) :
    ((asked instants).answers (later.map .sync)).sum =
        periodsIn (instants ++ later) - periodsIn instants ∧
      (asked instants).used (later.map .sync) = asked (instants ++ later) := by
  induction later generalizing instants with
  | nil => simp [answers, used]
  | cons now rest ih =>
    have split : instants ++ now :: rest = instants ++ [now] ++ rest := by simp
    rw [split] at few ⊢
    have here := periodsIn_le_append instants [now]
    have there := periodsIn_le_append (instants ++ [now]) rest
    have answered := sync_asked (Nat.le_trans there few)
    obtain ⟨total, last⟩ := ih few
    rw [List.map_cons, answers, used, List.foldl_cons, use, answered, List.sum_cons, total]
    refine ⟨?_, last⟩
    show periodsIn (instants ++ [now]) - periodsIn instants + _ = _
    omega

theorem le_latest (start : Int) (later : List Int) : start ≤ latest start later := by
  induction later generalizing start with
  | nil => exact Int.le_refl start
  | cons now rest ih => exact Int.le_trans (Int.le_max_left start now) (ih (max start now))

theorem asked_singleton (start : Int) : asked [start] = rebase start := by
  simp [asked, periodsIn, latest]

/-- However the time since an instant is sliced by questions, in whatever order of their instants,
and whatever the clock was before: as long as the latest lies less than 2 ^ 32 periods after the
first, the answers add up to the whole periods between the two. The baseline is then that many
periods after the first, so it does not pass the latest instant and is less than a period behind.
Once the baseline was dropped, the first question is answered with zero, and from there on it is as
if time had been counted from its instant. -/
theorem slicing (c : Clock) (start : Int) (later : List Int)
    (near : latest start later - start < UInt32.size * period) :
    let uses := later.map Use.sync
    let counted : Nat := (c.answers (.rebase start :: uses)).sum
    let baseline := start + period * counted
    (counted : Int) = (latest start later - start) / period ∧
      c.used (.rebase start :: uses) = ⟨some baseline⟩ ∧
      baseline ≤ latest start later ∧ latest start later - baseline < period ∧
      c.answers (.stop :: .sync start :: uses) = 0 :: c.answers (.rebase start :: uses) ∧
      c.used (.stop :: .sync start :: uses) = c.used (.rebase start :: uses) := by
  intro uses counted baseline
  have forward : start ≤ latest start later := le_latest start later
  have length : period = 16666666 := by decide
  have most : UInt32.size = greatestCount + 1 := rfl
  have few : periodsIn ([start] ++ later) ≤ greatestCount := by
    show (latest start later - start).toNat / period ≤ greatestCount
    rw [length] at near ⊢
    omega
  obtain ⟨total, last⟩ := sum_answers few
  have none_yet : periodsIn [start] = 0 := by simp [periodsIn, latest]
  rw [asked_singleton, none_yet, Nat.sub_zero] at total
  rw [asked_singleton] at last
  have total : counted = (latest start later - start).toNat / period := total
  refine ⟨?_, ?_, ?_, ?_, rfl, rfl⟩
  · rw [total, length]
    omega
  · refine last.trans ?_
    show rebase (start + period * periodsIn (start :: later)) = rebase (start + period * counted)
    rw [total, periodsIn]
  · show start + period * counted ≤ _
    rw [total, length]
    omega
  · show latest start later - (start + period * counted) < _
    rw [total, length]
    omega

/-- Questions that go back in time and slice a second unevenly. -/
theorem slicing_backwards :
    let later := [17000000, 5000000, 50000000, 40000000, 1000000000]
    latest 0 later - 0 < UInt32.size * period ∧
      (stopped.answers (.rebase 0 :: later.map .sync)).sum = 60 ∧
      stopped.used (.rebase 0 :: later.map .sync) = ⟨some 999999960⟩ ∧
      stopped.answers (.stop :: .sync 0 :: later.map .sync) =
        0 :: stopped.answers (.rebase 0 :: later.map .sync) := by
  intro later
  have near : latest 0 later - 0 < UInt32.size * period := by decide
  obtain ⟨total, last, -, -, again, -⟩ := slicing stopped 0 later near
  have periods : (latest 0 later - 0) / (period : Int) = 60 := by decide
  have counted : (stopped.answers (.rebase 0 :: later.map .sync)).sum = 60 := by omega
  have baseline : (0 : Int) + period * (60 : Nat) = 999999960 := by decide
  rw [counted, baseline] at last
  exact ⟨near, counted, last, again⟩

end Clock

end Chip8
