import Chip8.Fault

/-!
# The keypad

Sixteen keys that are held or not, the key pressed last, and a one-shot wait: once
armed for a register it takes the next key pressed, whatever is pressed after
that, and gives it up when asked. A key above F is refused and changes nothing.
-/

namespace Chip8
set_option autoImplicit false

/-- How far an outstanding wait for a key has come. -/
inductive KeyWait where
  /-- Nobody waits. -/
  | idle
  /-- The next key pressed is meant for this register. -/
  | waiting (register : UInt8)
  /-- A key arrived for this register and was not picked up yet. -/
  | resolved (register key : UInt8)
deriving DecidableEq

/-- The wait after a press of `key`: only the first press of a wait counts. -/
def KeyWait.press (key : UInt8) : KeyWait → KeyWait
  | .waiting register => .resolved register key
  | other => other

/-- Keys held, last key pressed and outstanding wait. -/
structure Keypad where
  held : Vector Bool 16
  last : Option UInt8
  wait : KeyWait

namespace Keypad

/-- No key was ever pressed and nobody waits. -/
def untouched : Keypad := { held := .replicate 16 false, last := none, wait := .idle }

/-- Presses a key. -/
def press (k : Keypad) (key : UInt8) : Except Fault Keypad :=
  if h : key.toNat < 16 then
    .ok { held := k.held.set key.toNat true, last := some key, wait := k.wait.press key }
  else .error (.invalidKey key.toNat)

/-- Lets a key go. -/
def release (k : Keypad) (key : UInt8) : Except Fault Keypad :=
  if h : key.toNat < 16 then .ok { k with held := k.held.set key.toNat false }
  else .error (.invalidKey key.toNat)

/-- Whether a key is held. -/
def isHeld (k : Keypad) (key : UInt8) : Except Fault Bool :=
  if h : key.toNat < 16 then .ok k.held[key.toNat] else .error (.invalidKey key.toNat)

/-- Waits for the next press on behalf of `register`. An older wait is forgotten. -/
def arm (k : Keypad) (register : UInt8) : Keypad := { k with wait := .waiting register }

/-- Forgets an outstanding wait and leaves the keys alone. -/
def cancel (k : Keypad) : Keypad := { k with wait := .idle }

/-- Picks up a key that arrived, with the register it is meant for. -/
def take (k : Keypad) : Option (UInt8 × UInt8) × Keypad :=
  match k.wait with
  | .resolved register key => (some (register, key), k.cancel)
  | _ => (none, k)

theorem isHeld_eq_ok_iff {k : Keypad} {key : UInt8} {held : Bool} :
    k.isHeld key = .ok held ↔ k.held[key.toNat]? = some held := by
  unfold isHeld
  by_cases known : key.toNat < 16 <;> simp [known]

theorem take_fst_eq_some_iff {k : Keypad} {register key : UInt8} :
    k.take.1 = some (register, key) ↔ k.wait = .resolved register key := by
  unfold take
  split
  · rename_i w
    simp [w]
  · rename_i other
    simp only [reduceCtorEq, false_iff]
    exact other register key

end Keypad

end Chip8
