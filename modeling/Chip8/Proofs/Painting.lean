import Mathlib.Algebra.BigOperators.Intervals
import Chip8.Screen.Coverage
import Chip8.Screen.Frame

/-!
# Painting inverts what it covers

Points are inverted one after the other, and each time the screen is read that the earlier ones
left. What a point is worth, its light and the visits to come, falls by two when it is switched
off and stays otherwise (`Frame.worth_cons`). So in the end its light is the parity of what it was
worth at first, and some point gets switched off exactly if one is worth two (`invertPoints_iff`).
The visits are the set bits of the sprite that fall on the point (`count_eq_hits`), of which there
is at most one unless the sprite is taller than the screen (`hits_le_one`).
-/

namespace Chip8
set_option autoImplicit false

/-- Whether a column and a row are those of a point on the screen. -/
def OnScreen (point : Nat × Nat) : Prop := point.1 < screenWidth ∧ point.2 < screenHeight

namespace Frame

/-- Points on the screen have places of their own. -/
theorem place_inj {point other : Nat × Nat} (on : OnScreen point) (on' : OnScreen other) :
    place point.1 point.2 = place other.1 other.2 ↔ point = other := by
  obtain ⟨x, y⟩ := point
  obtain ⟨x', y'⟩ := other
  simp only [OnScreen, screenWidth, screenHeight] at on on'
  simp only [place, screenWidth, screenHeight, Prod.mk.injEq]
  omega

/-- The frame with one point inverted. -/
def invert (f : Frame) (point : Nat × Nat) : Frame :=
  f.set point.1 point.2 (!f.get point.1 point.2)

theorem get_invert (f : Frame) {point other : Nat × Nat} (on : OnScreen point)
    (on' : OnScreen other) : (f.invert point).get other.1 other.2 =
      if point = other then !f.get other.1 other.2 else f.get other.1 other.2 := by
  simp only [invert, get_set, place_inj on on']
  split
  · rename_i same
    rw [same]
  · rfl

theorem invertPoints_cons (f : Frame) (point : Nat × Nat) (rest : List (Nat × Nat)) :
    invertPoints f (point :: rest) =
      (f.get point.1 point.2 || (invertPoints (f.invert point) rest).1,
        (invertPoints (f.invert point) rest).2) :=
  Chip8.invertPoints_cons f point rest

/-- What a point is worth: one if it is on, and one for each visit to come. -/
def worth (f : Frame) (points : List (Nat × Nat)) (point : Nat × Nat) : Nat :=
  (f.get point.1 point.2).toNat + points.count point

/-- A visit turns the light of the point and uses the visit up. Only where the point is switched
off both are lost. -/
theorem worth_cons (f : Frame) {point other : Nat × Nat} (rest : List (Nat × Nat))
    (on : OnScreen point) (on' : OnScreen other) :
    f.worth (point :: rest) other = (f.invert point).worth rest other +
      if point = other ∧ f.get point.1 point.2 = true then 2 else 0 := by
  simp only [worth, f.get_invert on on', List.count_cons, beq_iff_eq]
  by_cases same : point = other
  · subst same
    cases f.get point.1 point.2 with
    | true =>
      simp only [if_true, Bool.not_true, Bool.toNat_true, Bool.toNat_false, and_self]
      omega
    | false =>
      simp only [if_true, Bool.not_false, Bool.toNat_true, Bool.toNat_false, Bool.false_eq_true,
        and_false, if_false]
      omega
  · simp only [same, if_false, false_and, Nat.add_zero]

variable {f : Frame} {points : List (Nat × Nat)}

/-- After some points were inverted, a point is on if it was worth an odd number. -/
theorem get_invertPoints (all : ∀ point ∈ points, OnScreen point) {other : Nat × Nat}
    (on : OnScreen other) :
    (invertPoints f points).2.get other.1 other.2 = decide (f.worth points other % 2 = 1) := by
  induction points generalizing f with
  | nil =>
    show f.get other.1 other.2 = decide (((f.get other.1 other.2).toNat + 0) % 2 = 1)
    cases f.get other.1 other.2 <;> rfl
  | cons point rest ih =>
    obtain ⟨here, later⟩ := List.forall_mem_cons.1 all
    rw [invertPoints_cons, ih later, f.worth_cons rest here on]
    congr 1
    split <;> simp

/-- Some point is switched off on the way exactly if one is worth two or more. -/
theorem invertPoints_iff (all : ∀ point ∈ points, OnScreen point) :
    (invertPoints f points).1 = true ↔ ∃ point, OnScreen point ∧ 2 ≤ f.worth points point := by
  induction points generalizing f with
  | nil =>
    constructor
    · intro switched
      cases switched
    · rintro ⟨point, -, worth⟩
      have light : (f.get point.1 point.2).toNat ≤ 1 := Bool.toNat_le _
      have worth : 2 ≤ (f.get point.1 point.2).toNat := worth
      omega
  | cons point rest ih =>
    obtain ⟨here, later⟩ := List.forall_mem_cons.1 all
    rw [invertPoints_cons, Bool.or_eq_true, ih later]
    constructor
    · rintro (lit | ⟨other, on, worth⟩)
      · refine ⟨point, here, ?_⟩
        rw [f.worth_cons rest here here, if_pos ⟨rfl, lit⟩]
        omega
      · refine ⟨other, on, ?_⟩
        rw [f.worth_cons rest here on]
        omega
    · rintro ⟨other, on, worth⟩
      by_cases lit : f.get point.1 point.2 = true
      · exact .inl lit
      · rw [f.worth_cons rest here on, if_neg fun both => lit both.2] at worth
        exact .inr ⟨other, on, worth⟩

end Frame

/-- The set bits of a sprite, by row and column, that fall on a point if the sprite is drawn with
its top left corner at (`x`, `y`). -/
def coveringBits (x y : UInt8) (sprite : List UInt8) (px py : Nat) : Finset (Nat × Nat) :=
  (Finset.range sprite.length ×ˢ Finset.range 8).filter fun bit =>
    isSet (sprite.getD bit.1 0) bit.2 = true ∧
      (x.toNat + bit.2) % screenWidth = px ∧ (y.toNat + bit.1) % screenHeight = py

theorem mem_coveringBits_iff {x y : UInt8} {sprite : List UInt8} {px py down across : Nat} :
    (down, across) ∈ coveringBits x y sprite px py ↔ (down < sprite.length ∧ across < 8) ∧
      isSet (sprite.getD down 0) across = true ∧
        (x.toNat + across) % screenWidth = px ∧ (y.toNat + down) % screenHeight = py := by
  simp only [coveringBits, Finset.mem_filter, Finset.mem_product, Finset.mem_range]

/-- How many set bits of a sprite fall on a point. -/
def hits (x y : UInt8) (sprite : List UInt8) (px py : Nat) : Nat :=
  (coveringBits x y sprite px py).card

theorem rowCoverage_eq_sum (x row : UInt8) (px : Nat) :
    rowCoverage x row px = ∑ across ∈ Finset.range 8,
      if isSet row across = true ∧ (x.toNat + across) % screenWidth = px then 1 else 0 := by
  simp only [rowCoverage, Finset.sum_range_succ, List.range_succ, List.countP_append,
    List.countP_singleton, Finset.sum_range_zero, Bool.and_eq_true, beq_iff_eq]
  rfl

theorem coverageFrom_eq_sum (x : UInt8) (y px py : Nat) (rows : List UInt8) :
    coverageFrom x y px py rows = ∑ down ∈ Finset.range rows.length,
      if (y + down) % screenHeight = py then rowCoverage x (rows.getD down 0) px else 0 := by
  induction rows generalizing y with
  | nil => rfl
  | cons row rest ih =>
    rw [coverageFrom, ih, List.length_cons, Finset.sum_range_succ', Nat.add_comm]
    congr 1
    apply Finset.sum_congr rfl
    intro down _
    rw [Nat.add_assoc, Nat.add_comm 1 down, List.getD_cons_succ]

theorem coverage_eq_hits (x y : UInt8) (sprite : List UInt8) (px py : Nat) :
    coverage x y sprite px py = hits x y sprite px py := by
  rw [coverage, coverageFrom_eq_sum, hits, coveringBits, Finset.card_filter, Finset.sum_product]
  apply Finset.sum_congr rfl
  intro down _
  split
  · rename_i here
    simp only [rowCoverage_eq_sum, here, and_true]
  · rename_i elsewhere
    simp only [elsewhere, and_false, if_false, Finset.sum_const_zero]

/-- The drawing order visits a point once for each set bit that falls on it. -/
theorem count_eq_hits (x y : UInt8) (sprite : List UInt8) (px py : Nat) :
    (spritePoints x y sprite).count (px, py) = hits x y sprite px py :=
  (count_spritePoints x y sprite px py).trans (coverage_eq_hits x y sprite px py)

/-- No point is covered twice, unless the sprite is taller than the screen. -/
theorem hits_le_one {x y : UInt8} {sprite : List UInt8} (short : sprite.length ≤ screenHeight)
    (px py : Nat) : hits x y sprite px py ≤ 1 := by
  rw [hits, Finset.card_le_one]
  rintro ⟨down, across⟩ covers ⟨down', across'⟩ covers'
  obtain ⟨⟨low, narrow⟩, -, rfl, rfl⟩ := mem_coveringBits_iff.1 covers
  obtain ⟨⟨low', narrow'⟩, -, same, same'⟩ := mem_coveringBits_iff.1 covers'
  simp only [screenWidth, screenHeight] at short same same'
  have rows : down = down' := by omega
  have columns : across = across' := by omega
  rw [rows, columns]

theorem worth_spritePoints (f : Frame) (x y : UInt8) (sprite : List UInt8) (px py : Nat) :
    f.worth (spritePoints x y sprite) (px, py) =
      (f.get px py).toNat + hits x y sprite px py := by
  rw [Frame.worth, count_eq_hits]

/-- The light of a point that was inverted some times. -/
theorem odd_add_eq_xor (lit : Bool) (count : Nat) :
    decide ((lit.toNat + count) % 2 = 1) = (lit ^^ decide (count % 2 = 1)) := by
  cases lit with
  | false => rw [Bool.toNat_false, Nat.zero_add, Bool.false_xor]
  | true =>
    rw [Bool.toNat_true, Bool.true_xor, ← decide_not]
    exact decide_eq_decide.2 (by omega)

/-- To paint a sprite is to invert each point as often as set bits of the sprite fall on it, with
all coordinates wrapped around the edges, and it reports whether some point was worth two: lit
before or covered already when another bit falls on it. For a sprite that is no taller than the
screen this is whether some point was lit before and is covered. -/
theorem paint_inverts (f : Frame) (x y : UInt8) (sprite : List UInt8) :
    let painted := paint f x y sprite
    (∀ px < screenWidth, ∀ py < screenHeight, painted.2.get px py =
      (f.get px py ^^ decide (hits x y sprite px py % 2 = 1))) ∧
    (painted.1 = true ↔ ∃ px < screenWidth, ∃ py < screenHeight,
      2 ≤ (f.get px py).toNat + hits x y sprite px py) ∧
    (sprite.length ≤ screenHeight → (painted.1 = true ↔ ∃ px < screenWidth, ∃ py < screenHeight,
      f.get px py = true ∧ (coveringBits x y sprite px py).Nonempty)) := by
  intro painted
  have visited (point : Nat × Nat) : point ∈ spritePoints x y sprite → OnScreen point :=
    lt_of_mem_pointsFrom
  have collides : painted.1 = true ↔ ∃ px < screenWidth, ∃ py < screenHeight,
      2 ≤ (f.get px py).toNat + hits x y sprite px py := by
    refine (Frame.invertPoints_iff visited).trans ?_
    constructor
    · rintro ⟨⟨px, py⟩, ⟨across, down⟩, worth⟩
      rw [worth_spritePoints] at worth
      exact ⟨px, across, py, down, worth⟩
    · rintro ⟨px, across, py, down, worth⟩
      rw [← worth_spritePoints] at worth
      exact ⟨(px, py), ⟨across, down⟩, worth⟩
  refine ⟨fun px across py down => ?_, collides, fun short => collides.trans ?_⟩
  · have on : OnScreen (px, py) := ⟨across, down⟩
    have light := Frame.get_invertPoints (f := f) visited on
    rw [worth_spritePoints, odd_add_eq_xor] at light
    exact light
  · refine exists_congr fun px => and_congr_right fun _ => exists_congr fun py =>
      and_congr_right fun _ => ?_
    have once : hits x y sprite px py ≤ 1 := hits_le_one short px py
    rw [← Finset.card_pos, ← hits]
    cases f.get px py with
    | false =>
      simp only [Bool.toNat_false, Bool.false_eq_true, false_and, iff_false]
      omega
    | true =>
      simp only [Bool.toNat_true, true_and]
      omega

theorem get_blank (px py : Nat) : Frame.blank.get px py = false := by
  simp [Frame.get, Frame.blank]

/-- A sprite of one column that is one row taller than the screen. -/
def tallSprite : List UInt8 := .replicate 33 0x80

/-- Its last row switches off what the first one lit, on a screen where nothing was on. Without
that row nothing is switched off. -/
theorem paint_inverts_tallSprite :
    let painted := paint Frame.blank 0 0 tallSprite
    painted.1 = true ∧ painted.2.get 0 0 = false ∧ painted.2.get 0 1 = true ∧
      tallSprite.dropLast.length ≤ screenHeight ∧
      (paint Frame.blank 0 0 tallSprite.dropLast).1 = false := by
  intro painted
  have across : 0 < screenWidth := by decide
  have down : 0 < screenHeight ∧ 1 < screenHeight := by decide
  have twice : hits 0 0 tallSprite 0 0 = 2 := by
    rw [← coverage_eq_hits]
    decide +kernel
  have once : hits 0 0 tallSprite 0 1 = 1 := by
    rw [← coverage_eq_hits]
    decide +kernel
  obtain ⟨inverts, switches, -⟩ := paint_inverts .blank 0 0 tallSprite
  have fits : tallSprite.dropLast.length ≤ screenHeight := by decide
  have quiet := (paint_inverts .blank 0 0 tallSprite.dropLast).2.2 fits
  refine ⟨switches.2 ⟨0, across, 0, down.1, ?_⟩, ?_, ?_, fits, ?_⟩
  · rw [twice]
    exact Nat.le_add_left _ _
  · rw [inverts 0 across 0 down.1, get_blank, twice]
    rfl
  · rw [inverts 0 across 1 down.2, get_blank, once]
    rfl
  · rw [← Bool.not_eq_true, quiet]
    rintro ⟨px, -, py, -, lit, -⟩
    rw [get_blank] at lit
    cases lit

end Chip8
