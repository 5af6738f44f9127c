import Chip8.Proofs.Confinement
import Chip8.Proofs.ScreenUse

/-!
# Drawing twice

Points that are inverted twice are as they were (`Frame.invertPoints_twice`). A sprite that is no
taller than the screen visits no point twice, so the first drawing meets each point as it was and
the second meets its opposite: the two collisions part the set bits between them (`paint_iff`,
`paint_again_iff`). For the machine this is to draw twice with the same operands, which a flag in VF
leaves alone (`draw_twice`).
-/

namespace Chip8
set_option autoImplicit false

namespace Frame

variable {f g : Frame} {points : List (Nat × Nat)}

/-- Every place is that of a point on the screen. -/
theorem points_ext (same : ∀ point, OnScreen point →
    f.get point.1 point.2 = g.get point.1 point.2) : f.points = g.points := by
  apply Vector.ext
  intro i inside
  have on : OnScreen (i % screenWidth, i / screenWidth) := by
    simp only [OnScreen, screenWidth, screenHeight]
    omega
  have here : place (i % screenWidth) (i / screenWidth) = i := by
    simp only [place, screenWidth, screenHeight]
    omega
  have light := same _ on
  simp only [get, here] at light
  exact light

/-- Points that are inverted a second time, in whatever number, are as they were. -/
theorem invertPoints_twice (all : ∀ point ∈ points, OnScreen point) :
    (invertPoints (invertPoints f points).2 points).2.points = f.points := by
  apply points_ext
  intro point on
  rw [get_invertPoints all on, worth, odd_add_eq_xor, get_invertPoints all on, worth,
    odd_add_eq_xor, Bool.xor_assoc, Bool.xor_self, Bool.xor_false]

/-- Where no point is visited twice, each is met as it was. -/
theorem invertPoints_iff_of_nodup (all : ∀ point ∈ points, OnScreen point)
    (once : points.Nodup) :
    (invertPoints f points).1 = true ↔ ∃ point ∈ points, f.get point.1 point.2 = true := by
  rw [invertPoints_iff all]
  apply exists_congr
  intro point
  have most : points.count point ≤ 1 := List.nodup_iff_count_le_one.1 once point
  rw [← List.count_pos_iff, worth]
  cases f.get point.1 point.2 with
  | false =>
    simp only [Bool.toNat_false, Bool.false_eq_true, and_false, iff_false]
    omega
  | true =>
    simp only [Bool.toNat_true, and_true]
    constructor
    · rintro ⟨-, worth⟩
      omega
    · intro visited
      exact ⟨all point (List.count_pos_iff.1 visited), by omega⟩

theorem get_invertPoints_of_nodup (all : ∀ point ∈ points, OnScreen point) (once : points.Nodup)
    {point : Nat × Nat} (visited : point ∈ points) :
    (invertPoints f points).2.get point.1 point.2 = !f.get point.1 point.2 := by
  rw [get_invertPoints all (all point visited), worth, odd_add_eq_xor,
    List.count_eq_one_of_mem once visited]
  simp

end Frame

section

variable {f : Frame} {x y : UInt8} {sprite : List UInt8}

theorem nodup_spritePoints (short : sprite.length ≤ screenHeight) :
    (spritePoints x y sprite).Nodup := by
  rw [List.nodup_iff_count_le_one]
  rintro ⟨px, py⟩
  rw [count_eq_hits]
  exact hits_le_one short px py

/-- The first drawing switches off what was lit below a set bit. -/
theorem paint_iff (short : sprite.length ≤ screenHeight) : (paint f x y sprite).1 = true ↔
    ∃ bit ∈ setBits sprite, f.get (bitPoint x y bit).1 (bitPoint x y bit).2 = true := by
  have once : (spritePoints x y sprite).Nodup := nodup_spritePoints short
  rw [paint, Frame.invertPoints_iff_of_nodup onScreen_of_mem_spritePoints once,
    spritePoints_eq_map]
  simp only [List.mem_map, exists_exists_and_eq_and]

/-- The second switches off what was not. -/
theorem paint_again_iff (short : sprite.length ≤ screenHeight) :
    (paint (paint f x y sprite).2 x y sprite).1 = true ↔
      ∃ bit ∈ setBits sprite, f.get (bitPoint x y bit).1 (bitPoint x y bit).2 = false := by
  have once : (spritePoints x y sprite).Nodup := nodup_spritePoints short
  rw [paint_iff short]
  apply exists_congr
  intro bit
  apply and_congr_right
  intro set
  have visit : bitPoint x y bit ∈ spritePoints x y sprite := by
    rw [spritePoints_eq_map]
    exact List.mem_map_of_mem set
  rw [paint, Frame.get_invertPoints_of_nodup onScreen_of_mem_spritePoints once visit,
    Bool.not_eq_true']

end

/-- A row of which no bit is set is zero. -/
theorem eq_zero_of_isSet {row : UInt8} (clear : ∀ across < 8, isSet row across = false) :
    row = 0 := by
  apply UInt8.toNat_inj.1
  apply Nat.eq_of_testBit_eq
  intro i
  rw [UInt8.toNat_zero, Nat.zero_testBit]
  by_cases low : i < 8
  · have here := clear (7 - i) (by omega)
    rwa [isSet, show 7 - (7 - i) = i by omega] at here
  · apply Nat.testBit_lt_two_pow
    calc row.toNat
      _ < 2 ^ 8 := row.toNat_lt
      _ ≤ 2 ^ i := Nat.pow_le_pow_right (by decide) (by omega)

theorem setBits_eq_nil_iff {sprite : List UInt8} :
    setBits sprite = [] ↔ ∀ i < sprite.length, sprite.getD i 0 = 0 := by
  rw [List.eq_nil_iff_forall_not_mem]
  constructor
  · intro none i inside
    apply eq_zero_of_isSet
    intro across narrow
    rw [← Bool.not_eq_true]
    intro set
    exact none (i, across) (mem_setBits_iff.2 ⟨⟨inside, narrow⟩, set⟩)
  · rintro zero ⟨down, across⟩ mem
    obtain ⟨⟨inside, -⟩, set⟩ := mem_setBits_iff.1 mem
    rw [zero down inside, isSet, UInt8.toNat_zero, Nat.zero_testBit] at set
    cases set

/-- Neither drawing switches anything off exactly if there is nothing to draw. -/
theorem paint_quiet_iff {f : Frame} {x y : UInt8} {sprite : List UInt8}
    (short : sprite.length ≤ screenHeight) :
    ((paint f x y sprite).1 = false ∧ (paint (paint f x y sprite).2 x y sprite).1 = false) ↔
      ∀ i < sprite.length, sprite.getD i 0 = 0 := by
  rw [← setBits_eq_nil_iff, List.eq_nil_iff_forall_not_mem, ← Bool.not_eq_true,
    ← Bool.not_eq_true, paint_iff short, paint_again_iff short]
  constructor
  · rintro ⟨dark, lit⟩ bit mem
    cases light : f.get (bitPoint x y bit).1 (bitPoint x y bit).2 with
    | false => exact lit ⟨bit, mem, light⟩
    | true => exact dark ⟨bit, mem, light⟩
  · intro none
    exact ⟨fun ⟨bit, mem, _⟩ => none bit mem, fun ⟨bit, mem, _⟩ => none bit mem⟩

theorem Memory.read_of_slice {memory : Memory} {start count : Nat} {bytes : List UInt8}
    (slice : memory.slice start count = .ok bytes) : bytes.length = count ∧
      ∀ i < count, memory.read (start + i) = .ok (bytes.getD i 0) := by
  unfold Memory.slice at slice
  split at slice
  · rename_i room
    cases slice
    refine ⟨List.length_ofFn, ?_⟩
    intro i inside
    rw [memory.read_of_lt (by omega : start + i < 4096)]
    simp [inside]
  · cases slice

theorem RegisterFile.read_setFlag (r : RegisterFile) (on : Bool) :
    (r.setFlag on).read flagNumber = .ok (if on then 1 else 0) := by
  simp [read, setFlag, flagNumber]

namespace Machine

variable {m : Machine} {x y rows across down : UInt8} {sprite : List UInt8}

/-- The machine with a sprite drawn over its frame, and in VF whether that switched a point off. -/
def overdrawn (m : Machine) (across down : UInt8) (sprite : List UInt8) : Machine :=
  let painted := paint m.frame across down sprite
  { m with registers := m.registers.setFlag painted.1, frame := painted.2 }

theorem execute_draw (readX : m.registers.read x.toNat = .ok across)
    (readY : m.registers.read y.toNat = .ok down)
    (slice : m.memory.slice m.index rows.toNat = .ok sprite) :
    m.execute (.draw x y rows) = (m.overdrawn across down sprite, .ok .next) := by
  rw [execute, draw, drawSprite, readX, readY, slice]
  rfl

/-- The machine shows the same as before, and nothing else has changed but VF and whether a copy of
the frame is out of date. -/
structure Redrawn (m second : Machine) : Prop where
  kept : ∃ v stale, second =
    { m with registers := { m.registers with v }, frame := { m.frame with stale } }
  v : ∀ r, r ≠ RegisterFile.flagNumber → second.registers.read r = m.registers.read r

theorem redrawn_overdrawn (m : Machine) (across down : UInt8) (sprite : List UInt8) :
    m.Redrawn ((m.overdrawn across down sprite).overdrawn across down sprite) where
  kept := by
    let painted := paint m.frame across down sprite
    let again := paint painted.2 across down sprite
    let registers := (m.registers.setFlag painted.1).setFlag again.1
    have points : again.2.points = m.frame.points :=
      Frame.invertPoints_twice onScreen_of_mem_spritePoints
    have frame : again.2 = ⟨m.frame.points, again.2.stale⟩ := by rw [← points]
    exact ⟨registers.v, again.2.stale, congrArg (fun frame => { m with registers, frame }) frame⟩
  v r other := by
    have first := m.registers.read_setFlag_ne (paint m.frame across down sprite).1 other
    exact (RegisterFile.read_setFlag_ne _ _ other).trans first

/-- Drawing the same sprite twice, with coordinates in registers other than VF and a sprite that
lies in memory: both drawings succeed, and the second leaves the machine as the first found it, but
for VF. If the sprite is no taller than the screen, the flags tell whether some set bit of it falls
on a point that was lit before, and on one that was not. So both are zero only for rows of zero. -/
theorem draw_twice (m : Machine) {x y rows : UInt8} (hx : x.toNat < RegisterFile.flagNumber)
    (hy : y.toNat < RegisterFile.flagNumber) (room : m.index + rows.toNat ≤ memorySize) :
    ∃ (across down : UInt8) (sprite : List UInt8) (first second : Machine) (erased restored : Bool),
      (m.registers.read x.toNat = .ok across ∧ m.registers.read y.toNat = .ok down ∧
        m.memory.slice m.index rows.toNat = .ok sprite) ∧
      (m.execute (.draw x y rows) = (first, .ok .next) ∧
        first.execute (.draw x y rows) = (second, .ok .next)) ∧
      m.Redrawn second ∧
      (first.registers.read RegisterFile.flagNumber = .ok (if erased then 1 else 0) ∧
        second.registers.read RegisterFile.flagNumber = .ok (if restored then 1 else 0)) ∧
      (rows.toNat ≤ screenHeight →
        (erased = true ↔ ∃ bit ∈ setBits sprite,
          m.frame.get (bitPoint across down bit).1 (bitPoint across down bit).2 = true) ∧
        (restored = true ↔ ∃ bit ∈ setBits sprite,
          m.frame.get (bitPoint across down bit).1 (bitPoint across down bit).2 = false) ∧
        ((erased = false ∧ restored = false) ↔
          ∀ i < rows.toNat, m.memory.read (m.index + i) = .ok 0)) := by
  have knownX : x.toNat < 16 := Nat.lt_of_lt_of_le hx (by decide)
  have knownY : y.toNat < 16 := Nat.lt_of_lt_of_le hy (by decide)
  obtain ⟨across, readX⟩ := m.registers.exists_read knownX
  obtain ⟨down, readY⟩ := m.registers.exists_read knownY
  obtain ⟨sprite, slice⟩ : ∃ sprite, m.memory.slice m.index rows.toNat = .ok sprite :=
    ⟨_, dif_pos room⟩
  obtain ⟨length, bytes⟩ := Memory.read_of_slice slice
  let first := m.overdrawn across down sprite
  -- The flag of the first drawing went to VF, so the second one reads the same coordinates.
  have readX' : first.registers.read x.toNat = .ok across :=
    (m.registers.read_setFlag_ne _ (Nat.ne_of_lt hx)).trans readX
  have readY' : first.registers.read y.toNat = .ok down :=
    (m.registers.read_setFlag_ne _ (Nat.ne_of_lt hy)).trans readY
  refine ⟨across, down, sprite, first, first.overdrawn across down sprite, _, _,
    ⟨readX, readY, slice⟩, ⟨execute_draw readX readY slice, execute_draw readX' readY' slice⟩,
    m.redrawn_overdrawn across down sprite,
    ⟨RegisterFile.read_setFlag _ _, RegisterFile.read_setFlag _ _⟩, ?_⟩
  intro low
  have short : sprite.length ≤ screenHeight := by omega
  refine ⟨paint_iff short, paint_again_iff short, (paint_quiet_iff short).trans ?_⟩
  rw [length]
  apply forall_congr'
  intro i
  apply imp_congr_right
  intro inside
  rw [bytes i inside, Except.ok.injEq]

/-- A machine in which I points at the picture of a digit, with coordinates that make the picture
wrap around both edges. -/
def glyphMachine : Machine :=
  (fresh (.ofSeed 0)).withRegisters
    { RegisterFile.zero with v := .replicate 16 62, index := ⟨fontStart, by decide⟩ }

/-- Nothing is lit before the picture of the digit is drawn, and not all of its rows are empty. -/
theorem draw_twice_glyphMachine :
    (0 : UInt8).toNat < RegisterFile.flagNumber ∧ (1 : UInt8).toNat < RegisterFile.flagNumber ∧
      glyphMachine.index + (5 : UInt8).toNat ≤ memorySize ∧ (5 : UInt8).toNat ≤ screenHeight ∧
      ∃ first second, glyphMachine.execute (.draw 0 1 5) = (first, .ok .next) ∧
        first.execute (.draw 0 1 5) = (second, .ok .next) ∧ glyphMachine.Redrawn second ∧
        first.registers.read 0xF = .ok 0 ∧ second.registers.read 0xF = .ok 1 := by
  have hx : (0 : UInt8).toNat < RegisterFile.flagNumber := by decide
  have hy : (1 : UInt8).toNat < RegisterFile.flagNumber := by decide
  have room : glyphMachine.index + (5 : UInt8).toNat ≤ memorySize := by decide
  have low : (5 : UInt8).toNat ≤ screenHeight := by decide
  obtain ⟨across, down, sprite, first, second, erased, restored, -, ⟨draws, draws'⟩, redrawn,
    ⟨flag, flag'⟩, flags⟩ := draw_twice glyphMachine hx hy room
  obtain ⟨erases, -, quiet⟩ := flags low
  have dark : erased = false := by
    rw [← Bool.not_eq_true, erases]
    rintro ⟨bit, -, lit⟩
    cases lit.symm.trans (get_blank _ _)
  have loud : restored = true := by
    rw [← Bool.not_eq_false]
    intro restored
    have zero := quiet.1 ⟨dark, restored⟩ 0 (by decide)
    have drawn : glyphMachine.memory = Memory.image [] := rfl
    rw [drawn, Memory.read_image [] (by decide)] at zero
    cases zero
  rw [dark] at flag
  rw [loud] at flag'
  exact ⟨hx, hy, room, low, first, second, draws, draws', redrawn, flag, flag'⟩

end Machine

end Chip8
