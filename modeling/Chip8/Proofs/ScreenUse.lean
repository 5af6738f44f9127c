import Mathlib.Data.List.ProdSigma
import Chip8.Proofs.Painting
import Chip8.Screen.Recording

/-!
# What drawing asks of a screen

The uses that drawing makes of a screen, whatever the screen is and whatever it answers. Each set
bit of the sprite has its turn, row by row and from the most significant bit on (`setBits`): the
point it falls on is read and then written to with the opposite of what was answered
(`inversions`). A recording shows just these uses in this order and no other call, and made of the
bare screen they are given just those answers (`paint_uses`).
-/

namespace Chip8
set_option autoImplicit false

/-! ## The bits of a sprite in order -/

/-- The set bits of a sprite by row and column: row by row, and in a row the most significant bit
first. -/
def setBits (sprite : List UInt8) : List (Nat × Nat) :=
  (List.range sprite.length ×ˢ List.range 8).filter fun bit => isSet (sprite.getD bit.1 0) bit.2

theorem mem_setBits_iff {sprite : List UInt8} {down across : Nat} :
    (down, across) ∈ setBits sprite ↔
      (down < sprite.length ∧ across < 8) ∧ isSet (sprite.getD down 0) across = true := by
  simp only [setBits, List.mem_filter, List.mem_product, List.mem_range]

/-- The point that a bit falls on if the sprite is drawn with its top left corner at (`x`, `y`). -/
def bitPoint (x y : UInt8) (bit : Nat × Nat) : Nat × Nat :=
  ((x.toNat + bit.2) % screenWidth, (y.toNat + bit.1) % screenHeight)

theorem map_product (rows columns : List Nat) (f : Nat → Nat) :
    rows.map f ×ˢ columns = (rows ×ˢ columns).map fun bit => (f bit.1, bit.2) := by
  simp only [SProd.sprod, List.product, List.flatMap_map, List.map_flatMap, List.map_map]
  rfl

theorem setBits_cons (row : UInt8) (rest : List UInt8) : setBits (row :: rest) =
    (rowBits row).map (fun across => (0, across)) ++
      (setBits rest).map fun bit => (bit.1 + 1, bit.2) := by
  have rows : List.range (rest.length + 1) = 0 :: (List.range rest.length).map Nat.succ :=
    List.range_succ_eq_map
  rw [setBits, List.length_cons, rows, List.product_cons, map_product, List.filter_append,
    List.filter_map, List.filter_map]
  rfl

theorem pointsFrom_eq_map (x : UInt8) (y : Nat) (rows : List UInt8) : pointsFrom x y rows =
    (setBits rows).map fun bit =>
      ((x.toNat + bit.2) % screenWidth, (y + bit.1) % screenHeight) := by
  induction rows generalizing y with
  | nil => rfl
  | cons row rest ih =>
    rw [pointsFrom, setBits_cons, List.map_append, ih, List.map_map, List.map_map, rowPoints]
    congr 1
    apply List.map_congr_left
    intro bit _
    simp only [Function.comp_apply, Nat.add_assoc, Nat.add_comm 1]

theorem onScreen_of_mem_spritePoints {x y : UInt8} {sprite : List UInt8} :
    ∀ point ∈ spritePoints x y sprite, OnScreen point := by
  intro point mem
  exact lt_of_mem_pointsFrom mem

/-- The drawing order is the order of the bits. -/
theorem spritePoints_eq_map (x y : UInt8) (sprite : List UInt8) :
    spritePoints x y sprite = (setBits sprite).map (bitPoint x y) :=
  pointsFrom_eq_map x y.toNat sprite

/-! ## Reads and writes -/

/-- The point that a use is made of. -/
def ScreenUse.point : ScreenUse → Nat × Nat
  | read x y | write x y _ => (x, y)

namespace Screen

variable {σ : Type} [Screen σ]

/-- Makes the listed calls of a screen in order. What the reads are answered, and the screen that is
left. -/
def replay (screen : σ) : List ScreenCall → List Bool × σ
  | [] => ([], screen)
  | .point (.read x y) :: rest =>
    let (on, screen) := Screen.read screen x y
    let (answers, screen) := replay screen rest
    (on :: answers, screen)
  | .point (.write x y on) :: rest => replay (Screen.write screen x y on) rest
  | .clear :: rest => replay (Screen.clear screen) rest

/-- What a screen answers at each of the points when the ones before it were inverted. -/
def answers (screen : σ) (points : List (Nat × Nat)) : List Bool :=
  points.mapIdx fun i point =>
    (Screen.read (invertPoints screen (points.take i)).2 point.1 point.2).1

variable (screen : σ) (point : Nat × Nat) (rest points : List (Nat × Nat))

theorem answers_cons : answers screen (point :: rest) =
    (invertPoint (false, screen) point).1 ::
      answers (invertPoint (false, screen) point).2 rest := by
  simp only [answers, List.mapIdx_cons, List.take_succ_cons, invertPoints_cons]
  congr 1

theorem length_answers : (answers screen points).length = points.length := by
  simp [answers]

/-- Some point was switched off if some answer was that it is on. -/
theorem invertPoints_fst_iff :
    (invertPoints screen points).1 = true ↔ true ∈ answers screen points := by
  induction points generalizing screen with
  | nil => simp [invertPoints, answers]
  | cons point rest ih =>
    rw [invertPoints_cons, answers_cons, Bool.or_eq_true, ih, List.mem_cons, eq_comm]

/-- The turn of a point: it is read, and the opposite of the answer is written to it. -/
def inversion (turn : (Nat × Nat) × Bool) : List ScreenUse :=
  [.read turn.1.1 turn.1.2, .write turn.1.1 turn.1.2 !turn.2]

/-- The turns of points that are answered in order. -/
def inversions (points : List (Nat × Nat)) (answers : List Bool) : List ScreenUse :=
  (points.zip answers).flatMap inversion

theorem point_of_mem_inversions {points : List (Nat × Nat)} {answers : List Bool} {use : ScreenUse}
    (mem : use ∈ inversions points answers) : use.point ∈ points := by
  obtain ⟨⟨point, on⟩, turn, mem⟩ := List.mem_flatMap.1 mem
  have visited : point ∈ points := (List.of_mem_zip turn).1
  rcases List.mem_pair.1 mem with rfl | rfl
  · exact visited
  · exact visited

/-- The turns, made of the screen, are given the answers that they go by. -/
theorem replay_inversions :
    replay screen ((inversions points (answers screen points)).map .point) =
      (answers screen points, (invertPoints screen points).2) := by
  induction points generalizing screen with
  | nil => rfl
  | cons point rest ih =>
    have later := ih (invertPoint (false, screen) point).2
    rw [answers_cons, invertPoints_cons]
    exact congrArg (fun made : List Bool × σ => (_ :: made.1, made.2)) later

end Screen

namespace Recording

variable {σ : Type} [Screen σ]

/-- A point that is inverted on a recording has its turn noted, and the screen goes on as it does
without. -/
theorem invertPoint_recording (r : Recording σ) (point : Nat × Nat) :
    invertPoint (false, r) point =
      let (was, screen) := invertPoint (false, r.screen) point
      (was, { screen, past := ((Screen.inversion (point, was)).map .point).reverse ++ r.past }) :=
  rfl

theorem invertPoints_recording (r : Recording σ) (points : List (Nat × Nat)) :
    (invertPoints r points).2.calls =
        r.calls ++ (Screen.inversions points (Screen.answers r.screen points)).map .point ∧
      ((invertPoints r points).1, (invertPoints r points).2.screen) =
        invertPoints r.screen points := by
  induction points generalizing r with
  | nil => exact ⟨(List.append_nil _).symm, rfl⟩
  | cons point rest ih =>
    obtain ⟨later, screen⟩ := ih (invertPoint (false, r) point).2
    constructor
    · rw [invertPoints_cons, later, Screen.answers_cons, invertPoint_recording]
      simp [calls, Screen.inversions]
    · rw [invertPoints_cons, invertPoints_cons r.screen]
      exact congrArg (fun drawn : Bool × σ => (_ || drawn.1, drawn.2)) screen

end Recording

variable {σ : Type} [Screen σ]

/-- Drawing on any screen, whatever it answers, uses it as follows and in no other way: for each set
bit in order the point that the bit falls on is read once and then written to once, with the
opposite of the answer to that read. The screen is never cleared, all the points lie on it, and
drawing reports whether some answer was that the point is on. -/
theorem paint_uses (screen : σ) (x y : UInt8) (sprite : List UInt8) :
    let painted := paint (Recording.start screen) x y sprite
    ∃ answers : List Bool, answers.length = (setBits sprite).length ∧
      painted.2.uses = Screen.inversions ((setBits sprite).map (bitPoint x y)) answers ∧
      painted.2.calls = painted.2.uses.map .point ∧
      (∀ use ∈ painted.2.uses, OnScreen use.point) ∧
      Screen.replay screen painted.2.calls = (answers, painted.2.screen) ∧
      (painted.1 = true ↔ true ∈ answers) ∧
      paint screen x y sprite = (painted.1, painted.2.screen) := by
  intro painted
  let points := spritePoints x y sprite
  let answers := Screen.answers screen points
  have order : points = (setBits sprite).map (bitPoint x y) := spritePoints_eq_map x y sprite
  have recorded := (Recording.start screen).invertPoints_recording points
  have calls : painted.2.calls = (Screen.inversions points answers).map .point := recorded.1
  have uses : painted.2.uses = Screen.inversions points answers := Recording.uses_of_calls calls
  have bare : paint screen x y sprite = (painted.1, painted.2.screen) := recorded.2.symm
  refine ⟨answers, ?_, ?_, ?_, ?_, ?_, ?_, bare⟩
  · rw [Screen.length_answers, order, List.length_map]
  · rw [uses, order]
  · rw [calls, uses]
  · intro use mem
    rw [uses] at mem
    exact onScreen_of_mem_spritePoints _ (Screen.point_of_mem_inversions mem)
  · rw [calls, Screen.replay_inversions]
    exact congrArg (fun drawn : Bool × σ => (answers, drawn.2)) bare
  · have switched : (invertPoints screen points).1 = painted.1 := congrArg Prod.fst bare
    rw [← Screen.invertPoints_fst_iff, switched]

/-- A surface that answers every read with the opposite of the answer before, whatever is written
to it. -/
structure Flicker where
  on : Bool

instance : Screen Flicker where
  read f _ _ := (f.on, ⟨!f.on⟩)
  write f _ _ _ := f
  clear f := f

theorem paint_uses_flicker :
    let painted := paint (Recording.start (Flicker.mk true)) 63 31 [0x81, 0x80]
    painted.2.uses = [.read 63 31, .write 63 31 false, .read 6 31, .write 6 31 true,
        .read 63 0, .write 63 0 false] ∧ .clear ∉ painted.2.calls ∧
      (.read 6 31 ∈ painted.2.uses ∧ OnScreen (6, 31)) ∧ painted.1 = true := by
  intro painted
  have bits : setBits [0x81, 0x80] = [(0, 0), (0, 7), (1, 0)] := by decide
  obtain ⟨answers, length, uses, calls, on, replay, switched, -⟩ :=
    paint_uses (Flicker.mk true) 63 31 [0x81, 0x80]
  rw [bits] at length uses
  obtain ⟨first, second, third, rfl⟩ := List.length_eq_three.1 length
  rw [calls, uses] at replay
  -- What is written to it makes no difference, so the answers are known before the bits are.
  obtain ⟨rfl, rfl, rfl⟩ : true = first ∧ false = second ∧ true = third := by
    simpa [Screen.replay, Screen.inversions, Screen.inversion, Screen.read, Screen.write] using
      congrArg Prod.fst replay
  refine ⟨uses, ?_, ?_, switched.2 List.mem_cons_self⟩
  · rw [calls]
    simp
  have mem : .read 6 31 ∈ painted.2.uses := by
    rw [uses]
    decide
  exact ⟨mem, on _ mem⟩

end Chip8
