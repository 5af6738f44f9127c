/-!
# The 60 Hz clock

The clock answers how many whole timer periods went by since it was last asked.
Time that does not fill a period is kept for the next question, so however the
time is sliced no period is lost or counted twice. Instants are nanoseconds from
some fixed origin; an instant before the baseline counts as no time at all.
-/

namespace Chip8
set_option autoImplicit false

/-- The instant from which time is counted, if there is one. -/
structure Clock where
  baseline : Option Int
deriving DecidableEq

namespace Clock

/-- Nanoseconds between two beats of the timers. -/
def period : Nat := 1000000000 / 60

/-- The greatest number of periods that one answer counts. -/
def greatestCount : Nat := 0xFFFFFFFF

/-- A clock without a baseline. -/
def stopped : Clock := ⟨none⟩

/-- Counts from `now` on and forgets what was before. -/
def rebase (now : Int) : Clock := ⟨some now⟩

/-- The whole periods from an instant to a later one, zero if it is not later. -/
def periodsBetween (start now : Int) : Nat := min ((now - start).toNat / period) greatestCount

/-- The whole periods since the baseline, which moves on by as many periods. The
first question only sets the baseline. -/
def sync (c : Clock) (now : Int) : Nat × Clock :=
  match c.baseline with
  | none => (0, rebase now)
  | some start =>
    let periods := periodsBetween start now
    (periods, rebase (start + period * periods))

theorem sync_stopped (now : Int) : stopped.sync now = (0, rebase now) := rfl

theorem sync_rebase (start now : Int) :
    (rebase start).sync now =
      (periodsBetween start now, rebase (start + period * periodsBetween start now)) := rfl

/-- The baseline never passes the instant asked about once a period is counted. -/
theorem baseline_le (start now : Int) (h : 0 < periodsBetween start now) :
    start + period * periodsBetween start now ≤ now := by
  have counted : periodsBetween start now ≤ (now - start).toNat / period := Nat.min_le_left ..
  have whole : period * ((now - start).toNat / period) ≤ (now - start).toNat :=
    Nat.mul_div_le ..
  have below : period * periodsBetween start now ≤ (now - start).toNat :=
    Nat.le_trans (Nat.mul_le_mul_left _ counted) whole
  have some_time : 0 < (now - start).toNat := by
    have : 0 < period * periodsBetween start now := Nat.mul_pos (by decide) h
    omega
  have cast : ((period * periodsBetween start now : Nat) : Int) ≤ now - start := by omega
  rw [Int.natCast_mul] at cast
  omega

end Clock

end Chip8
