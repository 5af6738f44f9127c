import Chip8.Listing
import Chip8.Proofs.Encoding
import Chip8.Proofs.Reading

/-!
# Listings are lossless

The text of an item determines the item, an instruction with whatever operands
(`ListingItem.text_inj`), and the texts of all lines determine the program
(`Listing.listing_lossless`). A text is taken apart at its first blank and then at its commas
(`spell_inj`), and `Instruction.ofAssembly` tells which instruction an operation with these
operands is.
-/

namespace Chip8
set_option autoImplicit false

/-! ## Taking a text apart -/

/-- What stands before the first separator is determined, and so is what comes after it. -/
theorem append_cons_inj {α : Type} {separator : α} {a b x y : List α} (ha : separator ∉ a)
    (hb : separator ∉ b) (h : a ++ separator :: x = b ++ separator :: y) : a = b ∧ x = y := by
  induction a generalizing b with
  | nil =>
    cases b with
    | nil => exact ⟨rfl, (List.cons.inj h).2⟩
    | cons c b => exact absurd (List.cons.inj h).1 (List.ne_of_not_mem_cons hb)
  | cons c a ih =>
    cases b with
    | nil => exact absurd (List.cons.inj h).1.symm (List.ne_of_not_mem_cons ha)
    | cons d b =>
      obtain ⟨same, rest⟩ := List.cons.inj h
      obtain ⟨heads, tails⟩ := ih (List.not_mem_of_not_mem_cons ha)
        (List.not_mem_of_not_mem_cons hb) rest
      exact ⟨congr (congrArg List.cons same) heads, tails⟩

theorem mem_enumeration {x y : List Char} (rest : List (List Char)) :
    ',' ∈ [',', ' '].intercalate (x :: y :: rest) := by
  simp [List.intercalate_cons_cons]

/-- Pieces without commas are determined by their enumeration. -/
theorem enumeration_inj {xs ys : List (List Char)} (hx : ∀ x ∈ xs, ',' ∉ x)
    (hy : ∀ y ∈ ys, ',' ∉ y) (some_x : xs ≠ []) (some_y : ys ≠ [])
    (h : [',', ' '].intercalate xs = [',', ' '].intercalate ys) : xs = ys := by
  induction xs generalizing ys with
  | nil => exact absurd rfl some_x
  | cons x xs ih =>
    obtain ⟨pure_x, pure_xs⟩ := List.forall_mem_cons.1 hx
    cases ys with
    | nil => exact absurd rfl some_y
    | cons y ys =>
      obtain ⟨pure_y, pure_ys⟩ := List.forall_mem_cons.1 hy
      cases xs with
      | nil =>
        cases ys with
        | nil => simpa using h
        | cons y' ys =>
          rw [List.intercalate_singleton] at h
          exact absurd (h ▸ mem_enumeration ys) pure_x
      | cons x' xs =>
        cases ys with
        | nil =>
          rw [List.intercalate_singleton] at h
          exact absurd (h ▸ mem_enumeration xs) pure_y
        | cons y' ys =>
          simp only [List.intercalate_cons_cons, List.append_assoc, List.cons_append,
            List.nil_append] at h
          obtain ⟨first, rest⟩ := append_cons_inj pure_x pure_y h
          rw [first, ih pure_xs pure_ys (List.cons_ne_nil _ _) (List.cons_ne_nil _ _)
            (List.cons.inj rest).2]

/-- The text of an operation with the texts of its operands. -/
def spell (operation : String) : List String → String
  | [] => operation
  | operands => operation ++ " " ++ ", ".intercalate operands

theorem toList_spell {operation : String} {operands : List String} (proper : operands ≠ []) :
    (spell operation operands).toList =
      operation.toList ++ ' ' :: [',', ' '].intercalate (operands.map String.toList) := by
  cases operands with
  | nil => exact absurd rfl proper
  | cons operand rest => simp [spell]

/-- An operation without blanks and operands without commas are determined by their text. -/
theorem spell_inj {a b : String} {xs ys : List String} (ha : ' ' ∉ a.toList) (hb : ' ' ∉ b.toList)
    (hx : ∀ x ∈ xs, ',' ∉ x.toList) (hy : ∀ y ∈ ys, ',' ∉ y.toList)
    (h : spell a xs = spell b ys) : a = b ∧ xs = ys := by
  have chars := congrArg String.toList h
  by_cases no_x : xs = []
  · by_cases no_y : ys = []
    · subst no_x no_y
      exact ⟨h, rfl⟩
    · subst no_x
      rw [toList_spell no_y, spell] at chars
      exact absurd (chars ▸ by simp) ha
  · by_cases no_y : ys = []
    · subst no_y
      rw [toList_spell no_x, spell] at chars
      exact absurd (chars ▸ by simp) hb
    · rw [toList_spell no_x, toList_spell no_y] at chars
      obtain ⟨operation, operands⟩ := append_cons_inj ha hb chars
      have texts := enumeration_inj (by simpa using hx) (by simpa using hy) (by simpa) (by simpa)
        operands
      exact ⟨String.toList_injective operation,
        List.map_inj_right (fun _ _ => String.toList_injective) |>.1 texts⟩

/-! ## Instructions -/

theorem Operand.comma_not_mem_text (operand : Operand) : ',' ∉ operand.text.toList := by
  have clean := @Numeral.comma_not_mem_chars
  cases operand with
  | register x => simp [text, Numeral.hex, clean]
  | byte value | address value => simp [text, Numeral.toList_hexMarked, clean]
  | count value => simp [text, Numeral.decimal, clean]
  | index | atIndex | delay | sound | key | glyph | decimal => decide

namespace Instruction

/-- The instruction that an operation with these operands is. -/
def ofAssembly : String × List Operand → Option Instruction
  | ("SYS", [.address address]) => some (.system address)
  | ("CLS", []) => some .clear
  | ("RET", []) => some .ret
  | ("JP", [.address target]) => some (.jump target)
  | ("CALL", [.address target]) => some (.call target)
  | ("SE", [.register x, .byte value]) => some (.skip (.byte x value) true)
  | ("SNE", [.register x, .byte value]) => some (.skip (.byte x value) false)
  | ("SE", [.register x, .register y]) => some (.skip (.register x y) true)
  | ("SNE", [.register x, .register y]) => some (.skip (.register x y) false)
  | ("SKP", [.register x]) => some (.skip (.key x) true)
  | ("SKNP", [.register x]) => some (.skip (.key x) false)
  | ("LD", [.register x, .byte value]) => some (.set x value)
  | ("ADD", [.register x, .byte value]) => some (.increase x value)
  | ("LD", [.register x, .register y]) => some (.arithmetic .copy x y)
  | ("OR", [.register x, .register y]) => some (.arithmetic .or x y)
  | ("AND", [.register x, .register y]) => some (.arithmetic .and x y)
  | ("XOR", [.register x, .register y]) => some (.arithmetic .xor x y)
  | ("ADD", [.register x, .register y]) => some (.arithmetic .add x y)
  | ("SUB", [.register x, .register y]) => some (.arithmetic .subtract x y)
  | ("SHR", [.register x, .register y]) => some (.arithmetic .shiftRight x y)
  | ("SUBN", [.register x, .register y]) => some (.arithmetic .subtractFrom x y)
  | ("SHL", [.register x, .register y]) => some (.arithmetic .shiftLeft x y)
  | ("LD", [.index, .address address]) => some (.setIndex address)
  | ("JP", [.register _, .address base]) => some (.jumpOffset base)
  | ("RND", [.register x, .byte mask]) => some (.random x mask)
  | ("DRW", [.register x, .register y, .count rows]) => some (.draw x y rows)
  | ("LD", [.register x, .delay]) => some (.readDelay x)
  | ("LD", [.register x, .key]) => some (.awaitKey x)
  | ("LD", [.delay, .register x]) => some (.setDelay x)
  | ("LD", [.sound, .register x]) => some (.setSound x)
  | ("ADD", [.index, .register x]) => some (.increaseIndex x)
  | ("LD", [.glyph, .register x]) => some (.pointGlyph x)
  | ("LD", [.decimal, .register x]) => some (.storeDecimal x)
  | ("LD", [.atIndex, .register x]) => some (.storeRegisters x)
  | ("LD", [.register x, .atIndex]) => some (.loadRegisters x)
  | _ => none

theorem ofAssembly_assembly (i : Instruction) : ofAssembly i.assembly = some i := by
  cases i with
  | skip test expected => cases test <;> cases expected <;> rfl
  | arithmetic op x y => cases op <;> rfl
  | system | clear | ret | jump | call | set | increase | setIndex | jumpOffset | random | draw
  | readDelay | awaitKey | setDelay | setSound | increaseIndex | pointGlyph | storeDecimal
  | storeRegisters | loadRegisters => rfl

/-- The words for the operations, and no others. -/
def operations : List String :=
  ["SYS", "CLS", "RET", "JP", "CALL", "SE", "SNE", "SKP", "SKNP", "LD", "OR", "AND", "XOR", "ADD",
    "SUB", "SHR", "SUBN", "SHL", "RND", "DRW"]

theorem operation_mem (i : Instruction) : i.assembly.1 ∈ operations := by
  cases i with
  | skip test expected => cases test <;> cases expected <;> simp [assembly, operations]
  | arithmetic op x y => cases op <;> simp [assembly, Arithmetic.mnemonic, operations]
  | system | clear | ret | jump | call | set | increase | setIndex | jumpOffset | random | draw
  | readDelay | awaitKey | setDelay | setSound | increaseIndex | pointGlyph | storeDecimal
  | storeRegisters | loadRegisters => simp [assembly, operations]

theorem mnemonic_eq_spell (i : Instruction) :
    i.mnemonic = spell i.assembly.1 (i.assembly.2.map Operand.text) := by
  unfold mnemonic
  rcases i.assembly with ⟨operation, _ | ⟨operand, rest⟩⟩ <;> rfl

end Instruction

/-! ## Lines -/

namespace ListingItem

/-- The operation that an item is written as, and the texts of its operands. -/
def spelling : ListingItem → String × List String
  | .instruction shown => (shown.assembly.1, shown.assembly.2.map Operand.text)
  | .word value => ("DW", [Numeral.hexMarked 4 value.toNat])
  | .byte value => ("DB", [Numeral.hexMarked 2 value.toNat])

theorem text_eq_spell (item : ListingItem) :
    item.text = spell item.spelling.1 item.spelling.2 := by
  cases item with
  | instruction shown => exact shown.mnemonic_eq_spell
  | word value | byte value =>
    apply String.toList_injective
    simp only [text, spelling, toList_spell (List.cons_ne_nil _ _)]
    simp

/-- The operations of all items. -/
def operations : List String := "DW" :: "DB" :: Instruction.operations

theorem operation_mem (item : ListingItem) : item.spelling.1 ∈ operations := by
  cases item with
  | instruction shown =>
    exact List.mem_cons_of_mem _ (List.mem_cons_of_mem _ shown.operation_mem)
  | word value | byte value => simp [spelling, operations]

theorem blank_not_mem_operation (item : ListingItem) : ' ' ∉ item.spelling.1.toList := by
  have clean : ∀ operation ∈ operations, ' ' ∉ operation.toList := by decide
  exact clean _ item.operation_mem

theorem comma_not_mem_operand (item : ListingItem) :
    ∀ operand ∈ item.spelling.2, ',' ∉ operand.toList := by
  cases item with
  | instruction shown =>
    intro operand mem
    obtain ⟨operand, -, rfl⟩ := List.mem_map.1 mem
    exact operand.comma_not_mem_text
  | word value | byte value =>
    intro operand mem
    rw [List.mem_singleton.1 mem, Numeral.toList_hexMarked]
    simp [Numeral.comma_not_mem_chars]

/-- No instruction is written like a word or a byte. -/
theorem operation_ne (shown : Instruction) :
    shown.assembly.1 ≠ "DW" ∧ shown.assembly.1 ≠ "DB" := by
  have apart : ∀ operation ∈ Instruction.operations, operation ≠ "DW" ∧ operation ≠ "DB" := by
    decide
  exact apart _ shown.operation_mem

theorem spelling_inj {a b : ListingItem} (h : a.spelling = b.spelling) : a = b := by
  obtain ⟨operation, operands⟩ := Prod.mk.inj h
  cases a with
  | instruction i =>
    cases b with
    | instruction j =>
      have operands : i.assembly.2 = j.assembly.2 :=
        (List.map_inj_right fun _ _ => Operand.text_inj).1 operands
      have same := congrArg Instruction.ofAssembly (Prod.ext operation operands)
      rw [Instruction.ofAssembly_assembly, Instruction.ofAssembly_assembly] at same
      rw [Option.some.inj same]
    | word value => exact absurd operation (operation_ne i).1
    | byte value => exact absurd operation (operation_ne i).2
  | word value =>
    cases b with
    | instruction j => exact absurd operation.symm (operation_ne j).1
    | word other =>
      have same := Numeral.hexMarked_inj (List.cons.inj operands).1
      rw [UInt16.toNat.inj same]
    | byte other => simp at operation
  | byte value =>
    cases b with
    | instruction j => exact absurd operation.symm (operation_ne j).2
    | word other => simp at operation
    | byte other =>
      have same := Numeral.hexMarked_inj (List.cons.inj operands).1
      rw [UInt8.toNat.inj same]

/-- The text of an item determines the item. -/
theorem text_inj {a b : ListingItem} (h : a.text = b.text) : a = b := by
  rw [text_eq_spell, text_eq_spell] at h
  obtain ⟨operation, operands⟩ := spell_inj a.blank_not_mem_operation b.blank_not_mem_operation
    a.comma_not_mem_operand b.comma_not_mem_operand h
  exact spelling_inj (Prod.ext operation operands)

end ListingItem

/-! ## Listings -/

namespace Listing

/-- The decoder reads no two words alike, so neither does a listing show them alike. -/
theorem itemOfWord_inj {v w : UInt16} (h : itemOfWord v = itemOfWord w) : v = w := by
  unfold itemOfWord at h
  cases decoded : Opcode.instruction? v with
  | none =>
    cases decoded' : Opcode.instruction? w with
    | none => simpa [decoded, decoded'] using h
    | some j => simp [decoded, decoded'] at h
  | some i =>
    cases decoded' : Opcode.instruction? w with
    | none => simp [decoded, decoded'] at h
    | some j =>
      have same : i = j := by simpa [decoded, decoded'] using h
      rw [← (Opcode.encode_of_instruction? decoded).2, same,
        (Opcode.encode_of_instruction? decoded').2]

/-- No word is shown like a byte left over. -/
theorem itemOfWord_ne_byte (word : UInt16) (last : UInt8) : itemOfWord word ≠ .byte last := by
  unfold itemOfWord
  split <;> simp

/-- A word determines the two bytes it is made of. -/
theorem word_inj {a b c d : UInt8}
    (h : UInt16.ofNat (a.toNat * 256 + b.toNat) = UInt16.ofNat (c.toNat * 256 + d.toNat)) :
    a = c ∧ b = d := by
  have values := congrArg UInt16.toNat h
  have := a.toNat_lt
  have := b.toNat_lt
  have := c.toNat_lt
  have := d.toNat_lt
  simp only [UInt16.toNat_ofNat'] at values
  exact ⟨UInt8.toNat.inj (by omega), UInt8.toNat.inj (by omega)⟩

/-- The items of a program determine it. -/
theorem items_inj {p q : List UInt8} (h : items p = items q) : p = q := by
  fun_induction items p generalizing q with
  | case1 high low rest ih =>
    rcases q with _ | ⟨last, _ | ⟨low', rest'⟩⟩
    · cases h
    · exact absurd (List.cons.inj h).1 (itemOfWord_ne_byte _ last)
    · obtain ⟨word, rests⟩ := List.cons.inj h
      obtain ⟨rfl, rfl⟩ := word_inj (itemOfWord_inj word)
      rw [ih rests]
  | case2 last =>
    rcases q with _ | ⟨last', _ | ⟨low, rest⟩⟩
    · cases h
    · cases h
      rfl
    · exact absurd (List.cons.inj h).1.symm (itemOfWord_ne_byte _ last)
  | case3 =>
    rcases q with _ | ⟨last, _ | ⟨low, rest⟩⟩
    · rfl
    · cases h
    · cases h

/-- The lines that show `shown`, the first of them for the word `start`. -/
def lines (shown : List ListingItem) (start : Nat) : List ListingLine :=
  (shown.zipIdx start).map fun (item, i) => { address := programStart + 2 * i, item }

theorem ofProgram_of_fits {program : List UInt8} (fits : program.length ≤ programLimit) :
    ofProgram program = .ok (lines (items program) 0) :=
  if_pos fits

/-- Lines that begin at one address are told apart by what they show. -/
theorem lines_text_inj {as bs : List ListingItem} {start : Nat}
    (h : (lines as start).map ListingLine.text = (lines bs start).map ListingLine.text) :
    as = bs := by
  induction as generalizing bs start with
  | nil =>
    cases bs with
    | nil => rfl
    | cons b bs => cases h
  | cons a as ih =>
    cases bs with
    | nil => cases h
    | cons b bs =>
      obtain ⟨first, rest⟩ := List.cons.inj h
      have item : a.text = b.text := by
        have chars := congrArg String.toList first
        simp only [ListingLine.text, String.toList_append] at chars
        exact String.toList_injective (List.append_cancel_left chars)
      rw [ListingItem.text_inj item, @ih bs (start + 1) rest]

/-- The texts of instructions tell all instructions apart, with whatever operands. Every
program that fits has a listing, and the texts of its lines tell it apart from all others. -/
theorem listing_lossless :
    (∀ i j : Instruction, i.mnemonic = j.mnemonic → i = j) ∧
    ∀ p q : List UInt8, p.length ≤ programLimit → q.length ≤ programLimit →
      ∃ shown shown', ofProgram p = .ok shown ∧ ofProgram q = .ok shown' ∧
        (shown.map ListingLine.text = shown'.map ListingLine.text → p = q) := by
  constructor
  · intro i j same
    have items : ListingItem.instruction i = .instruction j := ListingItem.text_inj same
    exact ListingItem.instruction.inj items
  · intro p q fits fits'
    refine ⟨_, _, ofProgram_of_fits fits, ofProgram_of_fits fits', fun same => ?_⟩
    exact items_inj (lines_text_inj same)

/-- A byte left over after a word is not shown as the word that it ends. -/
theorem listing_lossless_parity :
    let odd : List UInt8 := [0x00, 0xE0, 0x12]
    let even : List UInt8 := [0x00, 0xE0, 0x00, 0x12]
    (Instruction.set 0x10 5).mnemonic ≠ (Instruction.set 0x1 5).mnemonic ∧
      odd.length ≤ programLimit ∧ even.length ≤ programLimit ∧
      ∃ shown shown', ofProgram odd = .ok shown ∧ ofProgram even = .ok shown' ∧
        shown.length = shown'.length ∧
        shown.map ListingLine.text ≠ shown'.map ListingLine.text := by
  intro odd even
  obtain ⟨mnemonics, listings⟩ := listing_lossless
  have unlike : Instruction.set 0x10 5 ≠ Instruction.set 0x1 5 := by decide
  have fits : odd.length ≤ programLimit := by decide
  have fits' : even.length ≤ programLimit := by decide
  obtain ⟨shown, shown', listed, listed', same⟩ := listings odd even fits fits'
  refine ⟨mt (mnemonics _ _) unlike, fits, fits', shown, shown', listed, listed', ?_,
    mt same (by decide)⟩
  cases listed
  cases listed'
  rfl

end Listing

end Chip8
