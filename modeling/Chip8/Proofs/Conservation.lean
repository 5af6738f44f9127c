import Chip8.Proofs.ScreenUse

/-!
# How many points are lit

An inversion adds one lit point, or takes one away if the point was on (`Frame.lit_invert`). So of
the set bits of a sprite each adds one, and those that strike a point that is on at their turn take
two away (`Frame.struck`). Painting reports whether there were any of these: whether the frame
gained less than it was given (`paint_conserves`).
-/

namespace Chip8
set_option autoImplicit false

namespace Frame

variable (f : Frame)

/-- A point that is inverted is one more that is lit, or if it was on one less. -/
theorem lit_invert (point : Nat × Nat) :
    (f.invert point).lit + 2 * (f.get point.1 point.2).toNat = f.lit + 1 := by
  have inside : place point.1 point.2 < f.points.toList.length := by
    rw [Vector.length_toList]
    exact place_lt _ _
  have here : f.points.toList[place point.1 point.2] = f.get point.1 point.2 := by
    simp [get]
  have turned : (f.invert point).lit =
      (f.points.toList.set (place point.1 point.2) !f.get point.1 point.2).count true := by
    have differs : f.get point.1 point.2 ≠ !f.get point.1 point.2 := by simp
    rw [invert, set, if_neg differs, lit, Vector.toList_set]
  rw [turned, List.count_set inside, here, lit]
  cases on : f.get point.1 point.2 with
  | false => simp
  | true =>
    have some : 0 < f.points.toList.count true := by
      rw [List.count_pos_iff, ← on, ← here]
      exact List.getElem_mem inside
    simp only [beq_self_eq_true, if_true, Bool.not_true, Bool.false_beq, Bool.false_eq_true,
      if_false, Bool.toNat_true]
    omega

theorem lit_invertPoints (points : List (Nat × Nat)) :
    (invertPoints f points).2.lit + 2 * (Screen.answers f points).count true =
      f.lit + points.length := by
  induction points generalizing f with
  | nil => rfl
  | cons point rest ih =>
    have here := f.lit_invert point
    have later := ih (f.invert point)
    have met : Screen.answers f (point :: rest) =
        f.get point.1 point.2 :: Screen.answers (f.invert point) rest :=
      Screen.answers_cons f point rest
    rw [invertPoints_cons, met, List.count_cons, List.length_cons]
    cases on : f.get point.1 point.2 <;> simp [on] at here ⊢ <;> omega

/-- The frame when some bits of a sprite have been drawn. -/
def drawn (x y : UInt8) (bits : List (Nat × Nat)) : Frame :=
  (invertPoints f (bits.map (bitPoint x y))).2

/-- How many set bits of a sprite fall on a point that is on at the moment that they are drawn. -/
def struck (x y : UInt8) (sprite : List UInt8) : Nat :=
  let met := (setBits sprite).mapIdx fun i bit =>
    (f.drawn x y ((setBits sprite).take i)).get (bitPoint x y bit).1 (bitPoint x y bit).2
  met.count true

theorem count_answers (x y : UInt8) (sprite : List UInt8) :
    (Screen.answers f (spritePoints x y sprite)).count true = f.struck x y sprite := by
  apply congrArg (List.count true)
  apply List.ext_getElem
  · simp [Screen.answers, spritePoints_eq_map]
  · intro i _ _
    simp [Screen.answers, spritePoints_eq_map, drawn, Screen.read]

end Frame

/-- Painting conserves the lit points but for those that it strikes: every set bit of the sprite
adds one, and every one that falls on a point that is on at that moment takes two away. It reports
a collision exactly if fewer points were added than the sprite has bits. -/
theorem paint_conserves (f : Frame) (x y : UInt8) (sprite : List UInt8) :
    let painted := paint f x y sprite
    let bits := (setBits sprite).length
    (painted.2.lit : Int) = f.lit + bits - 2 * f.struck x y sprite ∧
      (painted.1 = true ↔ painted.2.lit < f.lit + bits) := by
  intro painted bits
  have visits : (spritePoints x y sprite).length = bits := by
    rw [spritePoints_eq_map, List.length_map]
  have balance : painted.2.lit + 2 * f.struck x y sprite = f.lit + bits := by
    rw [← f.count_answers, ← visits]
    exact f.lit_invertPoints _
  have switched : painted.1 = true ↔ 0 < f.struck x y sprite := by
    rw [← f.count_answers, List.count_pos_iff]
    exact Screen.invertPoints_fst_iff f _
  constructor
  · omega
  · rw [switched]
    omega

end Chip8
