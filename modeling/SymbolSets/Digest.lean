/-!
# MurmurHash3 over 32-bit words

The x86 32-bit variant of MurmurHash3, taken in one word at a time. Words, seeds and counts are
integers of any size, of which the low 32 bits in two's complement count.

A state that this module returns fits 32 bits. A state that is given may be any integer: nothing
reduces it before it is rotated, and the rotation brings its bits 32 to 50 into the result. All bits
that can have an effect lie in the low 64, so a state is read through a 64-bit window.

## Main definitions

* `Digest.start`, `Digest.absorb`, `Digest.close`: the three stages of a digest.
* `Digest.absorbAll`, `Digest.ofWords`: the state after a list of words, and its digest.
-/

namespace SymbolSets.Digest

/-- The bits of `x` turned left by `n` places, for `n` between `1` and `31`. -/
def rotateLeft (x n : UInt32) : UInt32 :=
  x <<< n ||| x >>> (32 - n)

/-- What a word contributes to the state. -/
def scramble (word : UInt32) : UInt32 :=
  rotateLeft (word * 0xCC9E2D51) 15 * 0x1B873593

/-- The last mixing: every bit of the argument comes to affect every bit of the result. -/
def avalanche (x : UInt32) : UInt32 :=
  let y := x * 0x85EBCA6B
  let z := (y ^^^ y >>> 13) * 0xC2B2AE35
  z ^^^ z >>> 16

/-- The state before any word. -/
def start (seed : Int) : Int :=
  (UInt32.ofInt seed).toNat

/-- The state after one more word. -/
def absorb (state word : Int) : Int :=
  let x := UInt64.ofInt state ^^^ (scramble (UInt32.ofInt word)).toUInt64
  let turned := (x <<< 13 ||| x >>> 19).toUInt32
  (turned * 5 + 0xE6546B64).toNat

/-- The digest of a state that has taken in `count` words, of four bytes each. -/
def close (state count : Int) : Int :=
  let x := UInt64.ofInt state ^^^ (UInt32.ofInt (count * 4)).toUInt64
  (avalanche (x ^^^ x >>> 16).toUInt32).toNat

/-- The state after all words. -/
def absorbAll (seed : Int) (words : List Int) : Int :=
  words.foldl absorb (start seed)

/-- The digest of a list of words. -/
def ofWords (seed : Int) (words : List Int) : Int :=
  close (absorbAll seed words) words.length

end SymbolSets.Digest
