import Chip8.Screen

/-!
# Keeping record of the use of a screen

A recording wraps any screen and notes each call made of it, in order: reads and writes of points,
and when it was cleared.
-/

namespace Chip8
set_option autoImplicit false

/-- One use of a point of a screen. -/
inductive ScreenUse where
  | read (x y : Nat)
  | write (x y : Nat) (on : Bool)
deriving DecidableEq

/-- One call of a screen. -/
inductive ScreenCall where
  | point (use : ScreenUse)
  | clear
deriving DecidableEq

/-- The use of a point that a call is, if it is one. -/
def ScreenCall.use? : ScreenCall → Option ScreenUse
  | point use => some use
  | clear => none

/-- A screen, and the calls of it so far, the last one first. -/
structure Recording (σ : Type) where
  screen : σ
  past : List ScreenCall

namespace Recording

variable {σ : Type}

/-- A screen of which no use was made yet. -/
def start (screen : σ) : Recording σ := { screen, past := [] }

/-- The calls made, the first one first. -/
def calls (r : Recording σ) : List ScreenCall := r.past.reverse

/-- The uses made of points, the first one first. -/
def uses (r : Recording σ) : List ScreenUse := r.calls.filterMap ScreenCall.use?

/-- A recording that was called for points alone shows all the calls among its uses. -/
theorem uses_of_calls {r : Recording σ} {made : List ScreenUse}
    (calls : r.calls = made.map .point) : r.uses = made := by
  rw [uses, calls, List.filterMap_map]
  exact List.filterMap_some

instance [Screen σ] : Screen (Recording σ) where
  read r x y :=
    let (on, screen) := Screen.read r.screen x y
    (on, { screen, past := .point (.read x y) :: r.past })
  write r x y on :=
    { screen := Screen.write r.screen x y on, past := .point (.write x y on) :: r.past }
  clear r := { screen := Screen.clear r.screen, past := .clear :: r.past }

end Recording

end Chip8
