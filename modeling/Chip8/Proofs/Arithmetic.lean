import Chip8.Proofs.Refusal

/-!
# Register arithmetic in numbers

What the instructions that compute in V registers leave there, told in numbers: `number` and
`bit?` of an operation are its result and its flag. The operands are read before anything is
written, and the flag is written last, so which registers coincide makes no difference to
`Machine.Puts`: the flag stands in VF, the result in V`x` unless that is where the flag went, and
all other registers hold what they held (`arithmetic_puts`).
-/

namespace Chip8
set_option autoImplicit false

namespace Arithmetic

/-- The result of an operation on the numbers in V`x` and V`y`. -/
def number : Arithmetic → Nat → Nat → Int
  | copy, _, b => b
  | or, a, b => (a ||| b : Nat)
  | and, a, b => (a &&& b : Nat)
  | xor, a, b => (a ^^^ b : Nat)
  | add, a, b => (a + b) % 256
  | subtract, a, b => (a - b) % 256
  | shiftRight, _, b => b / 2
  | subtractFrom, a, b => (b - a) % 256
  | shiftLeft, _, b => 2 * b % 256

/-- The flag of an operation that reports one. -/
def bit? : Arithmetic → Nat → Nat → Option Nat
  | add, a, b => some (if 255 < a + b then 1 else 0)
  | subtract, a, b => some (if b < a then 1 else 0)
  | shiftRight, _, b => some (b % 2)
  | subtractFrom, a, b => some (if a < b then 1 else 0)
  | shiftLeft, _, b => some (b / 128)
  | _, _, _ => none

variable (op : Arithmetic) (a b : UInt8)

theorem toNat_result : ((op.result a b).toNat : Int) = op.number a.toNat b.toNat := by
  have hb := b.toNat_lt
  cases op with
  | copy => rfl
  | or => exact congrArg Int.ofNat (UInt8.toNat_or a b)
  | and => exact congrArg Int.ofNat (UInt8.toNat_and a b)
  | xor => exact congrArg Int.ofNat (UInt8.toNat_xor a b)
  | add => exact congrArg Int.ofNat (UInt8.toNat_add a b)
  | subtract | subtractFrom =>
    have ha := a.toNat_lt
    simp only [result, number, UInt8.toNat_sub]
    omega
  | shiftRight =>
    simp only [result, number, UInt8.toNat_shiftRight]
    rfl
  | shiftLeft =>
    simp only [result, number, UInt8.toNat_shiftLeft]
    simp [Nat.shiftLeft_eq]
    omega

/-- The flag that an operation reports, as one or zero. -/
theorem flag?_map : ((op.flag? a b).map fun on => if on then 1 else 0) =
    op.bit? a.toNat b.toNat := by
  cases op with
  | copy | or | and | xor => rfl
  | add | subtract | subtractFrom => simp [flag?, bit?, UInt8.lt_iff_toNat_lt]
  | shiftRight =>
    simp only [flag?, bit?, Option.map_some, decide_eq_true_eq]
    congr 1
    split <;> omega
  | shiftLeft =>
    have hb := b.toNat_lt
    simp only [flag?, bit?, Option.map_some, decide_eq_true_eq]
    congr 1
    split <;> omega

end Arithmetic

namespace RegisterFile

/-- V registers into which a result went, and after it the flag, if there is one. -/
structure Written (before : Vector UInt8 16) (x : Nat) (result : Int) (bit? : Option Nat)
    (v : Vector UInt8 16) : Prop where
  flag : ∀ bit ∈ bit?, v[0xF].toNat = bit
  /-- In VF the flag takes the place of the result. -/
  result : ∀ known : x < 16, (bit? ≠ none → x ≠ 0xF) → (v[x].toNat : Int) = result
  others : ∀ r, ∀ known : r < 16, r ≠ x → (bit? ≠ none → r ≠ 0xF) → v[r] = before[r]

variable {r : RegisterFile} {x : Nat}

theorem written_report (known : x < 16) (byte : UInt8) (flag : Option Bool) :
    Written r.v x byte.toNat (flag.map fun on => if on then 1 else 0)
      (({ r with v := r.v.set x byte } : RegisterFile).report flag).v := by
  cases flag with
  | none =>
    constructor
    · exact nofun
    · intro _ _
      simp [report]
    · intro r known other _
      simp [report, Vector.getElem_set_ne, Ne.symm other]
  | some on =>
    constructor
    · intro bit h
      cases h
      cases on <;> simp [report, setFlag, flagNumber]
    · intro _ free
      have apart : flagNumber ≠ x := Ne.symm (free nofun)
      simp [report, setFlag, Vector.getElem_set_ne, apart]
    · intro r known other free
      have apart : flagNumber ≠ r := Ne.symm (free nofun)
      simp [report, setFlag, Vector.getElem_set_ne, apart, Ne.symm other]

end RegisterFile

namespace Machine

/-- The instruction after this one follows, and V registers alone are changed: the result goes
into V`x` and then the flag, if there is one, into VF. -/
def Puts (m : Machine) (i : Instruction) (x : Nat) (result : Int) (bit? : Option Nat) : Prop :=
  ∃ v, m.execute i = (m.withRegisters { m.registers with v }, .ok .next) ∧
    RegisterFile.Written m.registers.v x result bit? v

variable {m : Machine}

/-- An instruction that does nothing but write a byte to V`x` and perhaps a flag to VF. -/
theorem puts_of_execute {i : Instruction} {x : Nat} (known : x < 16) {byte : UInt8}
    (flag : Option Bool) (execute : m.execute i = m.changeRegisters
      (.ok (({ m.registers with v := m.registers.v.set x byte } : RegisterFile).report flag))) :
    m.Puts i x byte.toNat (flag.map fun on => if on then 1 else 0) := by
  obtain ⟨v, reported⟩ := RegisterFile.report_changes_v
    { m.registers with v := m.registers.v.set x byte } flag
  have written := RegisterFile.written_report (r := m.registers) known byte flag
  rw [reported] at execute written
  exact ⟨v, execute, written⟩

/-- Arithmetic on registers that exist, whichever they are and also on one register alone, and
the setting and increasing of one: all succeed and leave just the result and the flag. -/
theorem arithmetic_puts (m : Machine) {x y : UInt8} (hx : Instruction.IsDigit x)
    (hy : Instruction.IsDigit y) (value : UInt8) :
    ∃ a b, m.registers.read x.toNat = .ok a ∧ m.registers.read y.toNat = .ok b ∧
      (∀ op : Arithmetic, m.Puts (.arithmetic op x y) x.toNat (op.number a.toNat b.toNat)
        (op.bit? a.toNat b.toNat)) ∧
      m.Puts (.set x value) x.toNat value.toNat none ∧
      m.Puts (.increase x value) x.toNat ((a.toNat + value.toNat) % 256) none := by
  have readX := m.registers.read_of_lt hx
  have readY := m.registers.read_of_lt hy
  refine ⟨_, _, readX, readY, fun op => ?_, ?_, ?_⟩
  · rw [← op.toNat_result, ← op.flag?_map]
    apply puts_of_execute hx
    rw [execute, m.registers.arithmetic_of_lt op hx hy]
  · apply puts_of_execute hx none
    rw [execute, m.registers.write_of_lt hx]
    rfl
  · have sum : ((m.registers.v[x.toNat] + value).toNat : Int) =
        (m.registers.v[x.toNat].toNat + value.toNat) % 256 := Arithmetic.add.toNat_result _ value
    rw [← sum]
    apply puts_of_execute hx none
    rw [execute, readX, ok_bind, m.registers.write_of_lt hx]
    rfl

/-- A machine in which all V registers hold the same number. -/
def evenMachine : Machine :=
  (fresh (.ofSeed 0)).withRegisters { RegisterFile.zero with v := .replicate 16 200 }

theorem arithmetic_puts_flagRegister :
    Instruction.IsDigit 0xF ∧ evenMachine.Puts (.arithmetic .add 0xF 0xF) 0xF 144 (some 1) ∧
      evenMachine.Puts (.arithmetic .subtract 0 0xF) 0 0 (some 0) ∧
      evenMachine.Puts (.increase 0xF 100) 0xF 44 none := by
  have last : Instruction.IsDigit 0xF := by decide
  obtain ⟨a, b, readX, readY, puts, -, increase⟩ := arithmetic_puts evenMachine last last 100
  obtain ⟨c, d, readZ, readW, puts', -⟩ :=
    arithmetic_puts evenMachine (by decide : Instruction.IsDigit 0) last 0
  cases readX
  cases readY
  cases readZ
  cases readW
  exact ⟨last, puts .add, puts' .subtract, increase⟩

end Machine

end Chip8
