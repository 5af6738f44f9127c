import Chip8.Instruction.Mnemonic

/-!
# Reading texts back

A numeral and an operand each determine what they were written from:
`Numeral.readChars_chars` reads a number back whatever its width, and `Operand.read_text` an
operand. Operands are told apart by their first characters, and a byte from an address by the
number of its digits.
-/

namespace Chip8
set_option autoImplicit false

namespace Numeral

/-- The digit that a character stands for. -/
def charDigit (c : Char) : Nat :=
  if c.toNat < 'A'.toNat then c.toNat - '0'.toNat else c.toNat - 'A'.toNat + 10

/-- The number that a list of characters stands for. -/
def readChars (base : Nat) (cs : List Char) : Nat := value base (cs.map charDigit)

theorem charDigit_digitChar {d : Nat} (h : d < 16) : charDigit (digitChar d) = d := by
  have all : ∀ d : Fin 16, charDigit (digitChar d) = d := by decide
  exact all ⟨d, h⟩

theorem digits_lt {base n d : Nat} (positional : 1 < base) (h : d ∈ digits base n) :
    d < base := by
  fun_induction digits base n with
  | case1 n small => simp at h; omega
  | case2 n _ ih =>
    rcases List.mem_append.1 h with earlier | last
    · exact ih earlier
    · rw [List.mem_singleton.1 last]
      exact Nat.mod_lt _ (by omega)

/-- Leading zeros do not count. -/
theorem value_zeros (base width : Nat) (ds : List Nat) :
    value base (List.replicate width 0 ++ ds) = value base ds := by
  induction width with
  | zero => rfl
  | succ width ih =>
    rw [List.replicate_succ, List.cons_append, ← ih]
    simp [value]

/-- The characters of a number determine it, in whatever width it is written. -/
theorem readChars_chars {base : Nat} (positional : 1 < base) (known : base ≤ 16) (width n : Nat) :
    readChars base (chars base width n) = n := by
  have digit : ((digits base n).map digitChar).map charDigit = digits base n := by
    rw [List.map_map]
    refine (List.map_congr_left fun d h => ?_).trans (List.map_id _)
    exact charDigit_digitChar (Nat.lt_of_lt_of_le (digits_lt positional h) known)
  have zero : charDigit '0' = 0 := rfl
  simp only [readChars, chars, List.map_append, List.map_replicate, digit, zero, value_zeros,
    value_digits]

theorem readChars_hex (width n : Nat) : readChars 16 (chars 16 width n) = n :=
  readChars_chars (by decide) (by decide) width n

theorem readChars_decimal (width n : Nat) : readChars 10 (chars 10 width n) = n :=
  readChars_chars (by decide) (by decide) width n

/-- A byte has at most two hexadecimal digits. -/
theorem length_digits_le_two {n : Nat} (h : n < 0x100) : (digits 16 n).length ≤ 2 := by
  rw [digits]
  split
  · simp
  · rw [digits, dif_pos (by omega)]
    simp

theorem length_chars_byte {n : Nat} (h : n < 0x100) : (chars 16 2 n).length = 2 := by
  have := length_digits_le_two h
  simp only [chars, List.length_append, List.length_replicate, List.length_map]
  omega

theorem le_length_chars (base width n : Nat) : width ≤ (chars base width n).length := by
  simp only [chars, List.length_append, List.length_replicate, List.length_map]
  omega

/-- The characters that numerals are made of. -/
def alphabet : List Char := (List.range 16).map digitChar

theorem mem_alphabet_of_mem_chars {base width n : Nat} {c : Char} (positional : 1 < base)
    (known : base ≤ 16) (h : c ∈ chars base width n) : c ∈ alphabet := by
  have digit (d : Nat) (small : d < 16) : digitChar d ∈ alphabet :=
    List.mem_map.2 ⟨d, List.mem_range.2 small, rfl⟩
  rcases List.mem_append.1 h with zero | body
  · rw [List.eq_of_mem_replicate zero]
    exact digit 0 (by decide)
  · obtain ⟨d, mem, rfl⟩ := List.mem_map.1 body
    exact digit d (Nat.lt_of_lt_of_le (digits_lt positional mem) known)

theorem comma_not_mem_chars {base width n : Nat} (positional : 1 < base) (known : base ≤ 16) :
    ',' ∉ chars base width n :=
  fun h => absurd (mem_alphabet_of_mem_chars positional known h) (by decide)

theorem toList_hexMarked (width n : Nat) :
    (hexMarked width n).toList = '0' :: 'x' :: chars 16 width n := by
  simp [hexMarked, hex]

theorem hexMarked_inj {width m n : Nat} (h : hexMarked width m = hexMarked width n) : m = n := by
  have chars := congrArg String.toList h
  simp only [toList_hexMarked, List.cons.injEq, true_and] at chars
  rw [← readChars_hex width m, chars, readChars_hex]

/-- A decimal numeral has no letters. -/
theorem isDigit_of_mem_chars {width n : Nat} {c : Char} (h : c ∈ chars 10 width n) :
    c.isDigit = true := by
  have digit : ∀ d : Fin 10, (digitChar d).isDigit = true := by decide
  rcases List.mem_append.1 h with zero | body
  · rw [List.eq_of_mem_replicate zero]
    rfl
  · obtain ⟨d, mem, rfl⟩ := List.mem_map.1 body
    exact digit ⟨d, digits_lt (by decide) mem⟩

end Numeral

namespace Operand
open Numeral

/-- The operand that a text stands for. -/
def read : List Char → Operand
  | ['I'] => .index
  | ['[', 'I', ']'] => .atIndex
  | ['D', 'T'] => .delay
  | ['S', 'T'] => .sound
  | ['K'] => .key
  | ['F'] => .glyph
  | ['B'] => .decimal
  | 'V' :: digits => .register (.ofNat (readChars 16 digits))
  | '0' :: 'x' :: digits =>
    if digits.length = 2 then .byte (.ofNat (readChars 16 digits))
    else .address (.ofNat (readChars 16 digits))
  | digits => .count (.ofNat (readChars 10 digits))

/-- A text of decimal digits is read as a count. -/
theorem read_of_digits {cs : List Char} (h : ∀ c ∈ cs, c.isDigit = true) :
    read cs = .count (.ofNat (readChars 10 cs)) := by
  unfold read
  split
  all_goals first | rfl | simp [Char.isDigit] at h

/-- Reading the text of an operand gives the operand. -/
theorem read_text (operand : Operand) : read operand.text.toList = operand := by
  cases operand with
  | register x =>
    have shape : (text (register x)).toList = 'V' :: chars 16 1 x.toNat := by
      simp [text, hex]
    simp [shape, read, readChars_hex]
  | byte value =>
    have two := length_chars_byte value.toNat_lt
    simp [text, toList_hexMarked, read, two, readChars_hex]
  | address value =>
    have three := le_length_chars 16 3 value.toNat
    have many : (chars 16 3 value.toNat).length ≠ 2 := by omega
    simp [text, toList_hexMarked, read, many, readChars_hex]
  | count value =>
    simp [text, Numeral.decimal, read_of_digits fun _ => isDigit_of_mem_chars, readChars_decimal]
  | index | atIndex | delay | sound | key | glyph | decimal => rfl

theorem text_inj {a b : Operand} (h : a.text = b.text) : a = b := by
  rw [← read_text a, h, read_text b]

end Operand

end Chip8
