import Chip8.Instruction.Encoding
import Chip8.Instruction.Opcode

/-!
# Decoding undoes encoding

A word and an instruction determine each other: `instruction?_encode` reads back the word
of every instruction whose operands fit, and `encode_of_instruction?` finds every word that
can be read among these words. `decode_eq_ok_iff_encode` and `decode_eq_error_iff_encode`
are what the rest of the theory uses of the decoder; the layout of the digits stays in here.
-/

namespace Chip8.Opcode
set_option autoImplicit false
open Instruction

/-! ## Digits as quotients -/

theorem family_eq (word : UInt16) : family word = word.toNat / 0x1000 := by
  have bound := word.toNat_lt
  simp only [family, digits, Nat.shiftRight_eq_div_pow, Nat.shiftLeft_eq]
  omega

theorem family_lt (word : UInt16) : family word < 0x10 := by
  have bound := word.toNat_lt
  rw [family_eq]
  omega

theorem toNat_x (word : UInt16) : (x word).toNat = word.toNat / 0x100 % 0x10 := by
  simp only [x, digits, Nat.shiftRight_eq_div_pow, Nat.shiftLeft_eq, UInt8.toNat_ofNat']
  omega

theorem toNat_y (word : UInt16) : (y word).toNat = word.toNat / 0x10 % 0x10 := by
  simp only [y, digits, Nat.shiftRight_eq_div_pow, Nat.shiftLeft_eq, UInt8.toNat_ofNat']
  omega

theorem toNat_n (word : UInt16) : (n word).toNat = word.toNat % 0x10 := by
  simp only [n, digits, Nat.shiftRight_eq_div_pow, Nat.shiftLeft_eq, UInt8.toNat_ofNat']
  omega

theorem toNat_kk (word : UInt16) : (kk word).toNat = word.toNat % 0x100 := by
  simp only [kk, digits, Nat.shiftRight_eq_div_pow, Nat.shiftLeft_eq, UInt8.toNat_ofNat']
  omega

theorem toNat_nnn (word : UInt16) : (nnn word).toNat = word.toNat % 0x1000 := by
  simp only [nnn, digits, Nat.shiftRight_eq_div_pow, Nat.shiftLeft_eq, UInt16.toNat_ofNat']
  omega

theorem isDigit_x (word : UInt16) : IsDigit (x word) := by
  rw [IsDigit, toNat_x]
  omega

theorem isDigit_y (word : UInt16) : IsDigit (y word) := by
  rw [IsDigit, toNat_y]
  omega

theorem isDigit_n (word : UInt16) : IsDigit (n word) := by
  rw [IsDigit, toNat_n]
  omega

theorem isAddress_nnn (word : UInt16) : IsAddress (nnn word) := by
  rw [IsAddress, toNat_nnn]
  omega

/-! ## The three shapes of a word -/

/-- A word is its family and its last three digits. -/
theorem addressWord_nnn {word : UInt16} {first : Nat} (h : family word = first) :
    addressWord first (nnn word) = word := by
  have bound := word.toNat_lt
  rw [family_eq] at h
  apply UInt16.toNat.inj
  simp only [addressWord, UInt16.toNat_ofNat', toNat_nnn]
  omega

/-- A word is its family, its second digit and its last two digits. -/
theorem byteWord_kk {word : UInt16} {first last : Nat} (h : family word = first)
    (hk : (kk word).toNat = last) : byteWord first (x word) last = word := by
  have bound := word.toNat_lt
  rw [family_eq] at h
  rw [toNat_kk] at hk
  apply UInt16.toNat.inj
  simp only [byteWord, UInt16.toNat_ofNat', toNat_x]
  omega

/-- A word is its family and its other three digits. -/
theorem registersWord_n {word : UInt16} {first last : Nat} (h : family word = first)
    (hn : (n word).toNat = last) : registersWord first (x word) (y word) last = word := by
  rw [registersWord]
  apply byteWord_kk h
  rw [toNat_n] at hn
  rw [toNat_kk, toNat_y]
  omega

theorem toNat_addressWord {first : Nat} {address : UInt16} (h : first < 0x10)
    (ha : IsAddress address) :
    (addressWord first address).toNat = first * 0x1000 + address.toNat := by
  rw [IsAddress] at ha
  simp only [addressWord, UInt16.toNat_ofNat']
  omega

theorem toNat_byteWord {first last : Nat} {r : UInt8} (h : first < 0x10) (hr : IsDigit r)
    (hl : last < 0x100) :
    (byteWord first r last).toNat = first * 0x1000 + r.toNat * 0x100 + last := by
  rw [IsDigit] at hr
  simp only [byteWord, UInt16.toNat_ofNat']
  omega

theorem toNat_registersWord {first last : Nat} {r s : UInt8} (h : first < 0x10) (hr : IsDigit r)
    (hs : IsDigit s) (hl : last < 0x10) :
    (registersWord first r s last).toNat =
      first * 0x1000 + r.toNat * 0x100 + (s.toNat * 0x10 + last) := by
  rw [IsDigit] at hs
  exact toNat_byteWord h hr (by omega)

section AddressWord

variable {first : Nat} {address : UInt16} (h : first < 0x10) (ha : IsAddress address)
include h ha

theorem family_addressWord : family (addressWord first address) = first := by
  rw [family_eq, toNat_addressWord h ha]
  rw [IsAddress] at ha
  omega

theorem nnn_addressWord : nnn (addressWord first address) = address := by
  apply UInt16.toNat.inj
  rw [toNat_nnn, toNat_addressWord h ha]
  rw [IsAddress] at ha
  omega

end AddressWord

section ByteWord

variable {first last : Nat} {r : UInt8} (h : first < 0x10) (hr : IsDigit r) (hl : last < 0x100)
include h hr hl

theorem family_byteWord : family (byteWord first r last) = first := by
  rw [family_eq, toNat_byteWord h hr hl]
  rw [IsDigit] at hr
  omega

theorem x_byteWord : x (byteWord first r last) = r := by
  apply UInt8.toNat.inj
  rw [toNat_x, toNat_byteWord h hr hl]
  rw [IsDigit] at hr
  omega

theorem toNat_kk_byteWord : (kk (byteWord first r last)).toNat = last := by
  rw [toNat_kk, toNat_byteWord h hr hl]
  omega

end ByteWord

theorem kk_byteWord {first : Nat} {r value : UInt8} (h : first < 0x10) (hr : IsDigit r) :
    kk (byteWord first r value.toNat) = value :=
  UInt8.toNat.inj (toNat_kk_byteWord h hr value.toNat_lt)

section RegistersWord

variable {first last : Nat} {r s : UInt8} (h : first < 0x10) (hr : IsDigit r) (hs : IsDigit s)
  (hl : last < 0x10)
include h hr hs hl

theorem family_registersWord : family (registersWord first r s last) = first := by
  rw [IsDigit] at hs
  exact family_byteWord h hr (by omega)

theorem x_registersWord : x (registersWord first r s last) = r := by
  rw [IsDigit] at hs
  exact x_byteWord h hr (by omega)

theorem y_registersWord : y (registersWord first r s last) = s := by
  apply UInt8.toNat.inj
  rw [toNat_y, toNat_registersWord h hr hs hl]
  rw [IsDigit] at hs
  omega

theorem toNat_n_registersWord : (n (registersWord first r s last)).toNat = last := by
  rw [toNat_n, toNat_registersWord h hr hs hl]
  omega

end RegistersWord

theorem n_registersWord {first : Nat} {r s rows : UInt8} (h : first < 0x10) (hr : IsDigit r)
    (hs : IsDigit s) (hl : IsDigit rows) : n (registersWord first r s rows.toNat) = rows :=
  UInt8.toNat.inj (toNat_n_registersWord h hr hs hl)

/-! ## The two directions -/

theorem arithmetic?_digit (op : Arithmetic) : arithmetic? op.digit = some op := by
  cases op <;> rfl

theorem digit_of_arithmetic? {last : Nat} {op : Arithmetic} (h : arithmetic? last = some op) :
    op.digit = last := by
  unfold arithmetic? at h
  split at h <;> cases h <;> rfl

theorem digit_lt (op : Arithmetic) : op.digit < 0x10 := by
  cases op <;> decide

theorem encode_of_miscellaneous? {word : UInt16} {i : Instruction} (first : family word = 0xF)
    (h : miscellaneous? (x word) (kk word).toNat = some i) : i.IsEncodable ∧ i.encode = word := by
  unfold miscellaneous? at h
  split at h <;> cases h <;> exact ⟨isDigit_x word, byteWord_kk first ‹_›⟩

/-- Whatever a word is read as encodes back to it. -/
theorem encode_of_instruction? {word : UInt16} {i : Instruction} (h : instruction? word = some i) :
    i.IsEncodable ∧ i.encode = word := by
  unfold instruction? at h
  split at h
  case h_1 first =>
    have back := addressWord_nnn first
    split at h
    · cases h
      exact ⟨trivial, by simp_all [encode]⟩
    split at h
    · cases h
      exact ⟨trivial, by simp_all [encode]⟩
    -- the two addresses that stand for other instructions were taken before
    rename_i notClear notRet
    cases h
    refine ⟨⟨isAddress_nnn word, ?_, ?_⟩, back⟩
    · intro same
      exact notClear (by rw [← back, same]; rfl)
    · intro same
      exact notRet (by rw [← back, same]; rfl)
  case h_2 first | h_3 first | h_11 first | h_12 first =>
    cases h
    exact ⟨isAddress_nnn word, addressWord_nnn first⟩
  case h_4 first | h_5 first | h_7 first | h_8 first | h_13 first =>
    cases h
    exact ⟨isDigit_x word, byteWord_kk first rfl⟩
  case h_6 first | h_10 first =>
    split at h
    · rename_i last
      cases h
      exact ⟨⟨isDigit_x word, isDigit_y word⟩, registersWord_n first (by rw [last]; rfl)⟩
    · cases h
  case h_9 first =>
    obtain ⟨op, selected, rfl⟩ := Option.map_eq_some_iff.1 h
    exact ⟨⟨isDigit_x word, isDigit_y word⟩,
      registersWord_n first (digit_of_arithmetic? selected).symm⟩
  case h_14 first =>
    cases h
    exact ⟨⟨isDigit_x word, isDigit_y word, isDigit_n word⟩, registersWord_n first rfl⟩
  case h_15 first =>
    split at h
    · rename_i last
      cases h
      exact ⟨isDigit_x word, byteWord_kk first (by rw [last]; rfl)⟩
    split at h
    · rename_i last
      cases h
      exact ⟨isDigit_x word, byteWord_kk first (by rw [last]; rfl)⟩
    · cases h
  case h_16 =>
    have bound := family_lt word
    have first : family word = 0xF := by grind
    exact encode_of_miscellaneous? first h

/-- The word of an instruction whose operands fit is read as that instruction. -/
theorem instruction?_encode {i : Instruction} (h : i.IsEncodable) :
    instruction? i.encode = some i := by
  cases i with
  | system address =>
    obtain ⟨fits, notClear, notRet⟩ := h
    have first : family (encode (.system address)) = 0x0 := family_addressWord (by decide) fits
    have last : nnn (encode (.system address)) = address := nnn_addressWord (by decide) fits
    have clear : encode (.system address) ≠ 0x00E0 := by
      intro same
      exact notClear (by rw [← last, same]; rfl)
    have ret : encode (.system address) ≠ 0x00EE := by
      intro same
      exact notRet (by rw [← last, same]; rfl)
    simp only [instruction?, first, last, clear, ret, if_false]
  | clear => rfl
  | ret => rfl
  | jump address | call address | setIndex address | jumpOffset address =>
    have fits : IsAddress address := h
    simp (disch := first | assumption | decide) only
      [instruction?, encode, family_addressWord, nnn_addressWord]
  | set r value | increase r value | random r value =>
    have fits : IsDigit r := h
    simp (disch := first | assumption | decide | exact UInt8.toNat_lt _) only
      [instruction?, encode, family_byteWord, x_byteWord, kk_byteWord]
  | skip test expected =>
    cases test with
    | byte r value =>
      have fits : IsDigit r := h
      cases expected <;>
        simp (disch := first | assumption | decide | exact UInt8.toNat_lt _) only
          [instruction?, encode, family_byteWord, x_byteWord, kk_byteWord]
    | register r s =>
      obtain ⟨hr, hs⟩ := h
      have last (first : Nat) (small : first < 0x10) : n (registersWord first r s 0) = 0 :=
        @n_registersWord first r s 0 small hr hs (by decide)
      cases expected <;>
        simp (disch := first | assumption | decide) only
          [instruction?, encode, family_registersWord, x_registersWord, y_registersWord, last,
            if_true]
    | key r =>
      have fits : IsDigit r := h
      have down : kk (byteWord 0xE r 0x9E) = 0x9E := @kk_byteWord 0xE r 0x9E (by decide) fits
      have up : kk (byteWord 0xE r 0xA1) = 0xA1 := @kk_byteWord 0xE r 0xA1 (by decide) fits
      cases expected
      · simp (disch := first | assumption | decide) only
          [instruction?, encode, family_byteWord, x_byteWord, up]
        rfl
      · simp (disch := first | assumption | decide) only
          [instruction?, encode, family_byteWord, x_byteWord, down, if_true]
  | arithmetic op r s =>
    obtain ⟨hr, hs⟩ := h
    simp (disch := first | assumption | decide | exact digit_lt _) only
      [instruction?, encode, family_registersWord, x_registersWord, y_registersWord,
        toNat_n_registersWord, arithmetic?_digit, Option.map_some]
  | draw r s rows =>
    obtain ⟨hr, hs, hl⟩ := h
    have low : rows.toNat < 0x10 := hl
    simp (disch := first | assumption | decide) only
      [instruction?, encode, family_registersWord, x_registersWord, y_registersWord,
        n_registersWord]
  | readDelay r | awaitKey r | setDelay r | setSound r | increaseIndex r | pointGlyph r
  | storeDecimal r | storeRegisters r | loadRegisters r =>
    have fits : IsDigit r := h
    simp (disch := first | assumption | decide) only
      [instruction?, encode, family_byteWord, x_byteWord, toNat_kk_byteWord, miscellaneous?]

/-- The decoder accepts exactly the words of encodable instructions. -/
theorem decode_eq_ok_iff_encode {word : UInt16} {i : Instruction} :
    decode word = .ok i ↔ i.IsEncodable ∧ i.encode = word := by
  rw [decode_eq_ok_iff]
  constructor
  · exact encode_of_instruction?
  · rintro ⟨fits, rfl⟩
    exact instruction?_encode fits

/-- The decoder refuses every other word, with the word as the cause. -/
theorem decode_eq_error_iff_encode {word : UInt16} {fault : Fault} :
    decode word = .error fault ↔
      (∀ i : Instruction, i.IsEncodable → i.encode ≠ word) ∧
        fault = .illegalOpcode word.toNat := by
  rw [decode_eq_error_iff, Option.eq_none_iff_forall_ne_some]
  have agree (i : Instruction) : instruction? word = some i ↔ i.IsEncodable ∧ i.encode = word := by
    rw [← decode_eq_ok_iff, decode_eq_ok_iff_encode]
  simp only [ne_eq, agree, not_and]

/-- Decoding is the inverse of encoding: it reads every instruction whose operands fit back from
its word, it reads nothing else from any word, and a word that is not the one of any such
instruction is refused with just that word as the cause. -/
theorem decode_inverts_encode :
    (∀ i : Instruction, i.IsEncodable → decode i.encode = .ok i) ∧
    (∀ (word : UInt16) (i : Instruction), decode word = .ok i →
      i.IsEncodable ∧ i.encode = word) ∧
    ∀ word : UInt16, (∀ i : Instruction, i.IsEncodable → i.encode ≠ word) →
      decode word = .error (.illegalOpcode word.toNat) := by
  refine ⟨?_, ?_, ?_⟩
  · intro i fits
    exact decode_eq_ok_iff_encode.2 ⟨fits, rfl⟩
  · intro word i decoded
    exact decode_eq_ok_iff_encode.1 decoded
  · intro word none
    exact decode_eq_error_iff_encode.2 ⟨none, rfl⟩

/-- A sprite of five rows, the word of a return, which would have been that of a host routine at
0x0EE, and a word whose last digit selects nothing. -/
theorem decode_inverts_encode_sample :
    let i := Instruction.draw 0xA 0xB 5
    (i.IsEncodable ∧ i.encode = 0xDAB5 ∧ decode i.encode = .ok i) ∧
    (decode 0x00EE = .ok .ret ∧ Instruction.ret.encode = 0x00EE) ∧
    (∀ i : Instruction, i.IsEncodable → i.encode ≠ 0x5AB1) ∧
      decode 0x5AB1 = .error (.illegalOpcode 0x5AB1) := by
  intro i
  obtain ⟨reads, finds, refuses⟩ := decode_inverts_encode
  have fits : i.IsEncodable := by decide
  have ret : decode 0x00EE = .ok .ret := rfl
  have none : ∀ i : Instruction, i.IsEncodable → i.encode ≠ 0x5AB1 :=
    (decode_eq_error_iff_encode.1 (show decode 0x5AB1 = .error _ from rfl)).1
  exact ⟨⟨fits, rfl, reads i fits⟩, ⟨ret, (finds _ _ ret).2⟩, none, refuses _ none⟩

end Chip8.Opcode
