import Chip8.Screen

/-!
# The frame buffer

The 2048 points that the machine shows, and whether they changed since somebody
last took a copy. Coordinates outside wrap around. A write that changes nothing
does not count as a change, while clearing always does.
-/

namespace Chip8
set_option autoImplicit false

/-- The points row by row, and whether a copy taken earlier may be out of date. -/
structure Frame where
  points : Vector Bool 2048
  stale : Bool

namespace Frame

/-- All points off, never shown to anybody. -/
def blank : Frame := { points := .replicate 2048 false, stale := true }

/-- The place of a point among the points, after wrapping. -/
def place (x y : Nat) : Nat := y % screenHeight * screenWidth + x % screenWidth

theorem place_lt (x y : Nat) : place x y < 2048 := by
  have across : x % 64 < 64 := Nat.mod_lt _ (by decide)
  have down : y % 32 < 32 := Nat.mod_lt _ (by decide)
  simp only [place, screenHeight, screenWidth]
  omega

/-- Whether a point is on. -/
def get (f : Frame) (x y : Nat) : Bool :=
  have inside := place_lt x y
  f.points[place x y]

/-- Turns a point on or off. -/
def set (f : Frame) (x y : Nat) (on : Bool) : Frame :=
  if f.get x y = on then f
  else { points := f.points.set (place x y) on (place_lt x y), stale := true }

/-- Turns all points off. -/
def clear (_ : Frame) : Frame := blank

/-- A copy of the frame if it changed since the last copy was taken. -/
def take (f : Frame) : Option Frame × Frame :=
  if f.stale then (some { f with stale := false }, { f with stale := false }) else (none, f)

/-- The number of points that are on. -/
def lit (f : Frame) : Nat := f.points.toList.count true

/-- The points of one row, left to right. -/
def row (f : Frame) (y : Nat) : List Bool := (List.range screenWidth).map fun x => f.get x y

instance : Screen Frame where
  read f x y := (f.get x y, f)
  write := set
  clear := clear

theorem get_set (f : Frame) (x y x' y' : Nat) (on : Bool) :
    (f.set x y on).get x' y' = if place x y = place x' y' then on else f.get x' y' := by
  unfold set
  split
  · rename_i same
    split
    · rename_i h
      simp only [get, ← same, h]
    · rfl
  · simp [get, Vector.getElem_set]

end Frame

end Chip8
