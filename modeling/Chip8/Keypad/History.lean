import Chip8.Keypad

/-!
# Histories of a keypad

The operations of a keypad as data, so that what a keypad holds can be compared with
what was done to it.
-/

namespace Chip8
set_option autoImplicit false

/-- One operation on a keypad. -/
inductive KeyEvent where
  | press (key : UInt8)
  | release (key : UInt8)
  | arm (register : UInt8)
  | cancel
  | take
deriving DecidableEq

namespace Keypad

/-- The keypad after an operation. A refused operation changes nothing. -/
def perform (k : Keypad) : KeyEvent → Keypad
  | .press key => (k.press key).toOption.getD k
  | .release key => (k.release key).toOption.getD k
  | .arm register => k.arm register
  | .cancel => k.cancel
  | .take => k.take.2

/-- The keypad after a history of operations. -/
def after (k : Keypad) (events : List KeyEvent) : Keypad := events.foldl perform k

theorem after_append (k : Keypad) (events more : List KeyEvent) :
    k.after (events ++ more) = (k.after events).after more := by
  simp [after, List.foldl_append]

end Keypad

end Chip8
