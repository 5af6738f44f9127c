/-!
# A keyed block function

The ChaCha permutation in twelve rounds: sixteen words made of four constants,
eight key words, a 64-bit block number and two zero words are stirred and added to
themselves. All arithmetic is modulo 2 ^ 32.
-/

namespace Chip8.Random
set_option autoImplicit false

/-- The words of one block. -/
abbrev Block := Vector UInt32 16

/-- The words that tell one stream from another. -/
abbrev Key := Vector UInt32 8

/-- Turns a word left by `n` bits, for `n` between 1 and 31. -/
def rotateLeft (word n : UInt32) : UInt32 := (word <<< n) ||| (word >>> (32 - n))

/-- One half of a quarter round: two additions, each folded into another word. -/
def stir (s : Block) (a b c d : Fin 16) (first second : UInt32) : Block :=
  let s := s.set a (s[a] + s[b])
  let s := s.set d (rotateLeft (s[d] ^^^ s[a]) first)
  let s := s.set c (s[c] + s[d])
  s.set b (rotateLeft (s[b] ^^^ s[c]) second)

/-- Stirs four words into each other. -/
def quarterRound (s : Block) (a b c d : Fin 16) : Block :=
  stir (stir s a b c d 16 12) a b c d 8 7

/-- The four columns, then the four diagonals. -/
def doubleRound (s : Block) : Block :=
  let s := quarterRound s 0 4 8 12
  let s := quarterRound s 1 5 9 13
  let s := quarterRound s 2 6 10 14
  let s := quarterRound s 3 7 11 15
  let s := quarterRound s 0 5 10 15
  let s := quarterRound s 1 6 11 12
  let s := quarterRound s 2 7 8 13
  quarterRound s 3 4 9 14

/-- The words that a block starts from. -/
def initialBlock (key : Key) (number : UInt64) : Block := #v[
  0x61707865, 0x3320646e, 0x79622d32, 0x6b206574,
  key[0], key[1], key[2], key[3], key[4], key[5], key[6], key[7],
  number.toUInt32, (number >>> 32).toUInt32, 0, 0]

/-- The block of a key with the given number: six double rounds. -/
def block (key : Key) (number : UInt64) : Block :=
  let start := initialBlock key number
  let stirred := Nat.repeat doubleRound 6 start
  stirred.zipWith (· + ·) start

end Chip8.Random
