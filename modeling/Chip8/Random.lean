import Chip8.Random.Cipher

/-!
# Random bytes

A seed fixes an endless stream of bytes, and a generator is a place in it. Drawing
answers the byte at that place and moves on by one, so the bytes drawn from a seed
are the beginning of its stream, whatever happens between the draws.
-/

namespace Chip8.Random
set_option autoImplicit false

/-- One step of the linear recurrence that spreads a seed over a key. -/
def spread (state : UInt64) : UInt64 := state * 6364136223846793005 + 11634580027462260723

/-- The key word taken from a state: its high half, mixed and turned right by the
amount in its top bits. -/
def keyWord (state : UInt64) : UInt32 :=
  let mixed := (((state >>> 18) ^^^ state) >>> 27).toUInt32
  let turn := (state >>> 59).toUInt32
  if turn = 0 then mixed else rotateLeft mixed (32 - turn)

/-- The state after `n` steps from a seed. -/
def spreadTimes (seed : UInt64) : Nat → UInt64
  | 0 => seed
  | n + 1 => spread (spreadTimes seed n)

/-- The key of a seed: the words of its first eight states. -/
def seedKey (seed : UInt64) : Key := .ofFn fun i => keyWord (spreadTimes seed (i + 1))

/-- Byte `n` of the stream of a key: the low byte of word `n`, sixteen words to a block. -/
def byteAt (key : Key) (n : Nat) : UInt8 :=
  (block key (UInt64.ofNat (n / 16)))[n % 16].toUInt8

end Chip8.Random

namespace Chip8

/-- A place in the stream of a key. -/
structure Random where
  key : Random.Key
  drawn : Nat

namespace Random

/-- The generator of a seed before its first byte. -/
def ofSeed (seed : UInt64) : Random := { key := seedKey seed, drawn := 0 }

/-- The next byte, and the generator after it. -/
def next (r : Random) : UInt8 × Random := (byteAt r.key r.drawn, { r with drawn := r.drawn + 1 })

end Random

end Chip8
