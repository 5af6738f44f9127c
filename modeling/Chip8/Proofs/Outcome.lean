/-!
# Outcomes

How an operation that may be refused comes to its answer: a sequence of two succeeds
if both do, and is refused by the first refusal in order.
-/

namespace Chip8
set_option autoImplicit false

variable {ε α β : Type}

@[simp] theorem pure_eq_ok (a : α) : (pure a : Except ε α) = .ok a := rfl

@[simp] theorem ok_bind (a : α) (f : α → Except ε β) : ((.ok a : Except ε α) >>= f) = f a := rfl

@[simp] theorem error_bind (e : ε) (f : α → Except ε β) :
    ((.error e : Except ε α) >>= f) = .error e := rfl

theorem bind_eq_ok_iff {first : Except ε α} {f : α → Except ε β} {b : β} :
    (first >>= f) = .ok b ↔ ∃ a, first = .ok a ∧ f a = .ok b := by
  cases first <;> simp

theorem bind_eq_error_iff {first : Except ε α} {f : α → Except ε β} {e : ε} :
    (first >>= f) = .error e ↔ first = .error e ∨ ∃ a, first = .ok a ∧ f a = .error e := by
  cases first <;> simp

theorem map_eq_ok_iff {first : Except ε α} {f : α → β} {b : β} :
    first.map f = .ok b ↔ ∃ a, first = .ok a ∧ f a = b := by
  cases first <;> simp [Except.map]

theorem map_eq_error_iff {first : Except ε α} {f : α → β} {e : ε} :
    first.map f = .error e ↔ first = .error e := by
  cases first <;> simp [Except.map]

end Chip8
