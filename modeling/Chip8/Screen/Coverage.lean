import Chip8.Screen

/-!
# How often a sprite covers a point

A point can be covered more than once by a sprite taller than the screen.
`coverage` counts the set bits that fall on a point straight from the rows of the
sprite, and `count_spritePoints` says that the drawing order visits it as often.
-/

namespace Chip8
set_option autoImplicit false

/-- Whether the bit at a column of a sprite row is set. -/
def isSet (row : UInt8) (column : Nat) : Bool := row.toNat.testBit (7 - column)

/-- How many set bits of one row, drawn at column `x`, fall on column `px`. -/
def rowCoverage (x : UInt8) (row : UInt8) (px : Nat) : Nat :=
  (List.range 8).countP fun across =>
    isSet row across && (x.toNat + across) % screenWidth == px

/-- How many set bits of the rows, drawn at column `x` from row `y` down, fall on the
point (`px`, `py`). -/
def coverageFrom (x : UInt8) (y : Nat) (px py : Nat) : List UInt8 → Nat
  | [] => 0
  | row :: rest =>
    (if y % screenHeight = py then rowCoverage x row px else 0) + coverageFrom x (y + 1) px py rest

/-- How many set bits of a sprite, drawn with its top left corner at (`x`, `y`), fall
on the point (`px`, `py`). -/
def coverage (x y : UInt8) (sprite : List UInt8) (px py : Nat) : Nat :=
  coverageFrom x y.toNat px py sprite

theorem count_rowPoints (x : UInt8) (y : Nat) (row : UInt8) (px py : Nat) :
    (rowPoints x y row).count (px, py) =
      if y % screenHeight = py then rowCoverage x row px else 0 := by
  simp only [rowPoints, List.count, List.countP_map, rowBits, List.countP_filter, rowCoverage,
    isSet]
  split
  · rename_i here
    apply List.countP_congr
    intro across _
    simp [here, and_comm]
  · rename_i elsewhere
    simp [elsewhere]

theorem count_pointsFrom (x : UInt8) (y : Nat) (rows : List UInt8) (px py : Nat) :
    (pointsFrom x y rows).count (px, py) = coverageFrom x y px py rows := by
  induction rows generalizing y with
  | nil => rfl
  | cons row rest ih => rw [pointsFrom, List.count_append, count_rowPoints, ih, coverageFrom]

theorem count_spritePoints (x y : UInt8) (sprite : List UInt8) (px py : Nat) :
    (spritePoints x y sprite).count (px, py) = coverage x y sprite px py :=
  count_pointsFrom x y.toNat sprite px py

end Chip8
