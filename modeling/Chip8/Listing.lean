import Chip8.Memory
import Chip8.Instruction.Opcode
import Chip8.Instruction.Mnemonic

/-!
# Listings

A program written out word by word from the address it is loaded at. Code and data
are not told apart: a word that encodes an instruction is shown as one, any other
as a plain word, and a byte left over at the end as a byte. A program too large to
be loaded has no listing.
-/

namespace Chip8
set_option autoImplicit false

/-- What a line of a listing shows. -/
inductive ListingItem where
  | instruction (shown : Instruction)
  | word (value : UInt16)
  | byte (value : UInt8)
deriving DecidableEq

/-- An item and the address it is loaded at. -/
structure ListingLine where
  address : Nat
  item : ListingItem
deriving DecidableEq

/-- The text of an item. -/
def ListingItem.text : ListingItem → String
  | .instruction shown => shown.mnemonic
  | .word value => "DW " ++ Numeral.hexMarked 4 value.toNat
  | .byte value => "DB " ++ Numeral.hexMarked 2 value.toNat

/-- The text of a line. -/
def ListingLine.text (line : ListingLine) : String :=
  Numeral.hex 3 line.address ++ ": " ++ line.item.text

namespace Listing

/-- The item that shows the word made of two bytes. -/
def itemOfWord (word : UInt16) : ListingItem :=
  match Opcode.instruction? word with
  | some instruction => .instruction instruction
  | none => .word word

/-- The items of a program, two bytes to an item. -/
def items : List UInt8 → List ListingItem
  | high :: low :: rest => itemOfWord (.ofNat (high.toNat * 256 + low.toNat)) :: items rest
  | [last] => [.byte last]
  | [] => []

/-- The listing of a program. -/
def ofProgram (program : List UInt8) : Except Fault (List ListingLine) :=
  if program.length ≤ programLimit then
    .ok ((items program).zipIdx.map fun (item, i) => { address := programStart + 2 * i, item })
  else .error (.programTooLarge program.length programLimit)

/-- A listing has a line for every two bytes, and one for a byte left over. -/
theorem length_items (program : List UInt8) :
    (items program).length = (program.length + 1) / 2 := by
  fun_induction items program with
  | case1 _ _ rest ih => simp only [List.length_cons, ih]; omega
  | case2 => simp
  | case3 => simp

end Listing

end Chip8
