import Chip8.Proofs.Outcome
import Chip8.Machine.Execute
import Chip8.Storage

/-!
# Changes

What is kept by a change that is put together from smaller ones: a property that each of them keeps
(`Keeps`). And how a change ends that goes along with something done to a simpler state, if each
state has one that stands for it (`ended`, `renewed`, `forM_run`).
-/

namespace Chip8
set_option autoImplicit false

namespace Change

variable {σ τ α β : Type} {P : σ → Prop}

/-- Whatever has the property still has it after the change, be the change refused or not. -/
def Keeps (P : σ → Prop) (change : Change σ α) : Prop := ∀ s, P s → P (change.leaves s)

theorem keeps_pure (a : α) : Keeps P (pure a) := fun _ holds => holds

theorem keeps_throw (fault : Fault) : Keeps P (throw fault : Change σ α) := fun _ holds => holds

theorem keeps_get : Keeps P (get : Change σ σ) := fun _ holds => holds

theorem keeps_modify {f : σ → σ} (kept : ∀ s, P s → P (f s)) : Keeps P (modify f) := kept

theorem keeps_modifyGet {f : σ → α × σ} (kept : ∀ s, P s → P (f s).2) :
    Keeps P (modifyGet f) := kept

theorem keeps_ofExcept (outcome : Except Fault α) : Keeps P (ofExcept outcome) := by
  cases outcome with
  | error fault => exact keeps_throw fault
  | ok a => exact keeps_pure a

theorem keeps_bind {change : Change σ α} {next : α → Change σ β} (first : Keeps P change)
    (second : ∀ a, Keeps P (next a)) : Keeps P (change >>= next) := by
  intro s holds
  have between := first s holds
  unfold leaves at between ⊢
  rw [bind_run]
  cases ran : change s with
  | ok a after =>
    rw [ran] at between
    exact second a after between
  | error fault after =>
    rw [ran] at between
    exact between

/-- What a change answers does not matter. -/
theorem keeps_answering {change : Change σ α} (kept : Keeps P change) (answer : α → β) :
    Keeps P (do return answer (← change)) :=
  keeps_bind kept fun _ => keeps_pure _

theorem keeps_discard {change : Change σ α} (kept : Keeps P change) : Keeps P (discard change) :=
  keeps_answering kept fun _ => ()

theorem keeps_forM {items : List α} {change : α → Change σ Unit}
    (kept : ∀ item, Keeps P (change item)) : Keeps P (items.forM change) := by
  induction items with
  | nil => exact keeps_pure ()
  | cons item rest ih => exact keeps_bind (kept item) fun _ => ih

theorem keeps_onRefusal {change : Change σ α} {f : Fault → σ → σ} (first : Keeps P change)
    (second : ∀ fault s, P s → P (f fault s)) : Keeps P (change.onRefusal f) := by
  intro s holds
  have between := first s holds
  unfold leaves at between ⊢
  unfold onRefusal
  cases ran : change s with
  | ok a after =>
    rw [ran] at between
    exact between
  | error fault after =>
    rw [ran] at between
    exact second fault after between

theorem keeps_tryFinally_modify {change : Change σ α} {f : σ → σ} (first : Keeps P change)
    (second : ∀ s, P s → P (f s)) : Keeps P (tryFinally change (modify f)) := by
  intro s holds
  have between := first s holds
  unfold leaves at between ⊢
  rw [tryFinally_modify_run]
  cases ran : change s with
  | ok a after | error fault after =>
    rw [ran] at between
    exact second after between

theorem keeps_whole {change : σ → Except Fault (α × σ)}
    (kept : ∀ s a after, P s → change s = .ok (a, after) → P after) : Keeps P (whole change) := by
  intro s holds
  unfold leaves whole
  cases ran : change s with
  | ok done => exact kept s done.1 done.2 holds ran
  | error fault => exact holds

theorem keeps_renew {change : σ → Except Fault σ}
    (kept : ∀ s after, P s → change s = .ok after → P after) : Keeps P (renew change) := by
  refine keeps_whole fun s _ after holds done => ?_
  obtain ⟨_, changed, done⟩ := bind_eq_ok_iff.1 done
  cases done
  exact kept s after holds changed

/-- A change of a part keeps what it keeps of the part, if the rest does not matter to it. -/
theorem keeps_onPart {part : σ → τ} {replace : τ → σ → σ} {Q : τ → Prop} {change : Change τ α}
    (kept : Keeps Q change) (before : ∀ s, P s → Q (part s))
    (after : ∀ s t, P s → Q t → P (replace t s)) : Keeps P (onPart part replace change) := by
  intro s holds
  have within := kept (part s) (before s holds)
  unfold leaves at within ⊢
  unfold onPart
  cases ran : change (part s) with
  | ok a changed | error fault changed =>
    rw [ran] at within
    exact after s changed holds within

/-! ## Ends -/

/-- How a change ends, told by what stands for the state that is left and by the outcome. -/
def ended (stored : σ → τ) : σ × Except Fault α → EStateM.Result Fault τ α
  | (s, .ok a) => .ok a (stored s)
  | (s, .error fault) => .error fault (stored s)

/-- How a change ends that is made as a whole or not at all. -/
def renewed (stored : σ → τ) (s : σ) : Except Fault σ → EStateM.Result Fault τ Unit
  | .ok after => .ok () (stored after)
  | .error fault => .error fault (stored s)

theorem leaves_of_ended {f : σ → τ} {change : Change τ α} {s : σ} {done : σ × Except Fault α}
    (same : change (f s) = ended f done) : change.leaves (f s) = f done.1 := by
  rw [leaves, same]
  obtain ⟨after, outcome⟩ := done
  cases outcome <;> rfl

theorem leaves_discard (change : Change σ α) (s : σ) :
    leaves (discard change) s = change.leaves s := by
  show leaves (change >>= fun _ => pure ()) s = _
  rw [leaves, bind_run, leaves]
  cases change s <;> rfl

/-- A loop whose turns do the same as those of a sweep does the same as the sweep. -/
theorem forM_run {f : σ → τ} {change : α → Change τ Unit} {step : σ → α → Except Fault σ}
    (same : ∀ s item, change item (f s) = renewed f s (step s item)) (items : List α)
    (s : σ) : items.forM change (f s) = ended f (sweep step s items) := by
  induction items generalizing s with
  | nil => rfl
  | cons item rest ih =>
    show (change item >>= fun _ => rest.forM change) (f s) = _
    rw [bind_run, same, sweep]
    cases step s item with
    | error fault => rfl
    | ok after => exact ih after

end Change

end Chip8
