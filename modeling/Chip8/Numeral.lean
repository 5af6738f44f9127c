/-!
# Numerals

Natural numbers written in a base of at most sixteen, most significant digit
first, with upper-case letters for the digits from ten on. `value_digits` says
that the digits of a number determine it. A field's width is a minimum: short
numbers get leading zeros and long ones keep all their digits.
-/

namespace Chip8.Numeral
set_option autoImplicit false

/-- The digits of `n`, most significant first; zero has one digit. There is no
positional system below base two, where `n` is left as a digit of its own. -/
def digits (base n : Nat) : List Nat :=
  if _h : base ≤ 1 ∨ n < base then [n] else digits base (n / base) ++ [n % base]
termination_by n
decreasing_by exact Nat.div_lt_self (by omega) (by omega)

/-- The number that a list of digits stands for. -/
def value (base : Nat) (ds : List Nat) : Nat :=
  ds.foldl (fun n d => n * base + d) 0

theorem value_concat (base : Nat) (ds : List Nat) (d : Nat) :
    value base (ds ++ [d]) = value base ds * base + d := by
  simp [value, List.foldl_append]

theorem value_digits (base n : Nat) : value base (digits base n) = n := by
  fun_induction digits base n with
  | case1 n _ => simp [value]
  | case2 n h ih => rw [value_concat, ih, Nat.mul_comm]; exact Nat.div_add_mod n base

/-- The character of a digit below sixteen. -/
def digitChar (d : Nat) : Char :=
  if d < 10 then Char.ofNat ('0'.toNat + d) else Char.ofNat ('A'.toNat + (d - 10))

/-- The characters of `n`, filled up with leading zeros to `width`. -/
def chars (base width n : Nat) : List Char :=
  let body := (digits base n).map digitChar
  List.replicate (width - body.length) '0' ++ body

/-- Decimal, without leading zeros. -/
def decimal (n : Nat) : String := String.ofList (chars 10 1 n)

/-- Hexadecimal in at least `width` digits. -/
def hex (width n : Nat) : String := String.ofList (chars 16 width n)

/-- Hexadecimal in at least `width` digits, marked `0x`. -/
def hexMarked (width n : Nat) : String := "0x" ++ hex width n

end Chip8.Numeral
