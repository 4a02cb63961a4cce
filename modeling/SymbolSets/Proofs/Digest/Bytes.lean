import Mathlib.Tactic.Ring
import SymbolSets.Digest

/-!
# The digest of words is MurmurHash3 of their bytes

MurmurHash3 is published as a function of a string of bytes, in arithmetic on 32-bit words that
wraps around. It reads the bytes in blocks of four, the lowest byte of a block first, mixes a rest
of up to three bytes in as the low bytes of a last block, and the number of bytes at the end.

Words are digested without being laid out as bytes. A state is an integer, which fits 32 bits at the
start and after each word; so the digest of a list of words is that of the bytes of their low 32
bits in two's complement, of which there are four for each word.

## Main definitions

* `MurmurHash3.digest`: the published function, the x86 variant with 32 bits.
* `MurmurHash3.littleEndian`: the bytes of the low 32 bits of an integer.

## Main results

* `Digest.absorb_toNat`, `Digest.close_toNat`: the stages on states that fit 32 bits.
* `Digest.ofWords_eq_digest`: the digest of words is that of their bytes.
* `Digest.absorbAll_mem`, `Digest.close_mem`: states and digests fit 32 bits.
-/

namespace SymbolSets

namespace MurmurHash3

/-! ### The published function -/

/-- What a block contributes to the state. -/
def mixBlock (k : BitVec 32) : BitVec 32 :=
  (k * 0xCC9E2D51#32).rotateLeft 15 * 0x1B873593#32

/-- The state after a whole block. -/
def mixState (h k : BitVec 32) : BitVec 32 :=
  (h ^^^ mixBlock k).rotateLeft 13 * 5#32 + 0xE6546B64#32

/-- Four bytes as a block, the lowest first. -/
def block (b₀ b₁ b₂ b₃ : BitVec 8) : BitVec 32 :=
  b₃ ++ b₂ ++ b₁ ++ b₀

/-- The whole blocks of a string of bytes, in order. -/
def blocks : List (BitVec 8) → List (BitVec 32)
  | b₀ :: b₁ :: b₂ :: b₃ :: bytes => block b₀ b₁ b₂ b₃ :: blocks bytes
  | _ => []

/-- The bytes after the last whole block. -/
def tail (bytes : List (BitVec 8)) : List (BitVec 8) :=
  bytes.drop (bytes.length / 4 * 4)

/-- The state after the tail, which is mixed in as the low bytes of a block, without a rotation. -/
def mixTail (h : BitVec 32) : List (BitVec 8) → BitVec 32
  | [] => h
  | b₀ :: bytes => h ^^^ mixBlock (block b₀ (bytes.getD 0 0) (bytes.getD 1 0) 0)

/-- The last mixing. -/
def finalMix (h : BitVec 32) : BitVec 32 :=
  let x := (h ^^^ h >>> 16) * 0x85EBCA6B#32
  let y := (x ^^^ x >>> 13) * 0xC2B2AE35#32
  y ^^^ y >>> 16

/-- The digest of a string of bytes. -/
def digest (seed : BitVec 32) (bytes : List (BitVec 8)) : BitVec 32 :=
  finalMix (mixTail ((blocks bytes).foldl mixState seed) (tail bytes) ^^^
    BitVec.ofNat 32 bytes.length)

/-- A string with a tail of three bytes. -/
example : digest 0x9747B28C#32 [0x61, 0x61, 0x61] = 0x283E0130#32 := by decide

/-- The bytes of the low 32 bits of an integer in two's complement, the lowest first. -/
def littleEndian (w : Int) : List (BitVec 8) :=
  [BitVec.ofInt 8 w, BitVec.ofInt 8 (w / 2 ^ 8), BitVec.ofInt 8 (w / 2 ^ 16),
    BitVec.ofInt 8 (w / 2 ^ 24)]

/-! ### Blocks of bytes -/

theorem toNat_append_byte {n : Nat} (x : BitVec n) (b : BitVec 8) :
    (x ++ b).toNat = x.toNat * 2 ^ 8 + b.toNat := by
  rw [BitVec.toNat_append, ← Nat.shiftLeft_add_eq_or_of_lt b.isLt, Nat.shiftLeft_eq]

/-- The bytes of an integer are a block of its low 32 bits. -/
theorem block_littleEndian (w : Int) :
    block (BitVec.ofInt 8 w) (BitVec.ofInt 8 (w / 2 ^ 8)) (BitVec.ofInt 8 (w / 2 ^ 16))
      (BitVec.ofInt 8 (w / 2 ^ 24)) = BitVec.ofInt 32 w := by
  apply BitVec.eq_of_toNat_eq
  simp only [block, toNat_append_byte, BitVec.toNat_ofInt]
  omega

theorem blocks_flatMap_littleEndian (words : List Int) :
    blocks (words.flatMap littleEndian) = words.map (BitVec.ofInt 32) := by
  induction words with
  | nil => rfl
  | cons w words ih =>
    rw [List.flatMap_cons, List.map_cons, ← ih, ← block_littleEndian]
    rfl

theorem length_flatMap_littleEndian (words : List Int) :
    (words.flatMap littleEndian).length = words.length * 4 := by
  induction words with
  | nil => rfl
  | cons w words ih =>
    rw [List.flatMap_cons, List.length_append, ih, List.length_cons]
    simp only [littleEndian, List.length_cons, List.length_nil]
    omega

end MurmurHash3

namespace Digest

open MurmurHash3

/-! ### The stages on states that fit 32 bits -/

theorem toBitVec_rotateLeft_fifteen (x : UInt32) :
    (rotateLeft x 15).toBitVec = x.toBitVec.rotateLeft 15 := by
  rw [BitVec.rotateLeft_def]
  simp [rotateLeft]

theorem toBitVec_scramble (x : UInt32) : (scramble x).toBitVec = mixBlock x.toBitVec := by
  simp [scramble, mixBlock, toBitVec_rotateLeft_fifteen]

/-- A rotation is done in 64 bits, of which the low half is kept. -/
theorem toBitVec_turn (x : UInt64) : (x <<< 13 ||| x >>> 19).toUInt32.toBitVec =
    (x.toBitVec <<< 13 ||| x.toBitVec >>> 19).setWidth 32 := by
  simp

/-- What fits 32 bits is rotated within them. -/
theorem setWidth_turn (y : BitVec 32) :
    (y.setWidth 64 <<< 13 ||| y.setWidth 64 >>> 19).setWidth 32 = y.rotateLeft 13 := by
  rw [BitVec.rotateLeft_def]
  apply BitVec.eq_of_getElem_eq
  intro i hi
  simp
  grind

/-- The window of a state that fits 32 bits is the state itself. -/
theorem toBitVec_window (x : BitVec 32) : (UInt64.ofInt x.toNat).toBitVec = x.setWidth 64 := by
  apply BitVec.eq_of_toNat_eq
  rw [UInt64.ofInt, UInt64.toBitVec_ofNat', BitVec.toNat_ofNat, BitVec.toNat_setWidth]
  omega

theorem toBitVec_ofInt (w : Int) : (UInt32.ofInt w).toBitVec = BitVec.ofInt 32 w := by
  apply BitVec.eq_of_toNat_eq
  rw [UInt32.ofInt, UInt32.toBitVec_ofNat', BitVec.toNat_ofNat, BitVec.toNat_ofInt]
  omega

theorem start_eq (seed : Int) : start seed = (BitVec.ofInt 32 seed).toNat := by
  rw [start, ← toBitVec_ofInt]
  rfl

/-- **A word is mixed into a state as the block of its bytes is.** -/
theorem absorb_toNat (x : BitVec 32) (w : Int) :
    absorb x.toNat w = (mixState x (BitVec.ofInt 32 w)).toNat := by
  have hinput : (UInt64.ofInt x.toNat ^^^ (scramble (UInt32.ofInt w)).toUInt64).toBitVec =
      (x ^^^ mixBlock (BitVec.ofInt 32 w)).setWidth 64 := by
    rw [UInt64.toBitVec_xor, UInt32.toBitVec_toUInt64, toBitVec_window, toBitVec_scramble,
      toBitVec_ofInt, BitVec.setWidth_xor]
  simp only [absorb, mixState, ← UInt32.toNat_toBitVec, UInt32.toBitVec_add, UInt32.toBitVec_mul,
    UInt32.toBitVec_ofNat, toBitVec_turn, hinput, setWidth_turn]

/-- The last mixing, after its first step. -/
theorem toBitVec_avalanche (x : UInt32) : (avalanche x).toBitVec =
    (let y := x.toBitVec * 0x85EBCA6B#32
     let z := (y ^^^ y >>> 13) * 0xC2B2AE35#32
     z ^^^ z >>> 16) := by
  simp only [avalanche, UInt32.toBitVec_xor, UInt32.toBitVec_mul, UInt32.toBitVec_shiftRight,
    UInt32.toBitVec_ofNat, BitVec.ushiftRight_eq', BitVec.toNat_umod, BitVec.ofNat_eq_ofNat,
    BitVec.toNat_ofNat, Nat.reducePow, Nat.reduceMod]

/-- The first step is done in 64 bits, of which the low half is kept. -/
theorem toBitVec_halve (x : UInt64) : (x ^^^ x >>> 16).toUInt32.toBitVec =
    (x.toBitVec ^^^ x.toBitVec >>> 16).setWidth 32 := by
  simp

theorem setWidth_halve (y : BitVec 32) :
    (y.setWidth 64 ^^^ y.setWidth 64 >>> 16).setWidth 32 = y ^^^ y >>> 16 := by
  apply BitVec.eq_of_getElem_eq
  intro i hi
  simp
  grind

/-- The last mixing of a state that fits 32 bits. -/
theorem close_toNat (x : BitVec 32) (n : Int) :
    close x.toNat n = (finalMix (x ^^^ BitVec.ofInt 32 (n * 4))).toNat := by
  have hinput : (UInt64.ofInt x.toNat ^^^ (UInt32.ofInt (n * 4)).toUInt64).toBitVec =
      (x ^^^ BitVec.ofInt 32 (n * 4)).setWidth 64 := by
    rw [UInt64.toBitVec_xor, UInt32.toBitVec_toUInt64, toBitVec_window, toBitVec_ofInt,
      BitVec.setWidth_xor]
  simp only [close, ← UInt32.toNat_toBitVec, toBitVec_avalanche, toBitVec_halve, hinput,
    setWidth_halve, finalMix]

/-! ### Digests of words -/

/-- The state after all words. The induction is on the words, each of which leads from one state
that fits 32 bits to another. -/
theorem foldl_absorb_toNat (x : BitVec 32) (words : List Int) :
    words.foldl absorb x.toNat = ((words.map (BitVec.ofInt 32)).foldl mixState x).toNat := by
  induction words generalizing x with
  | nil => rfl
  | cons w words ih => rw [List.foldl_cons, absorb_toNat, ih, List.map_cons, List.foldl_cons]

theorem absorbAll_toNat (seed : Int) (words : List Int) : absorbAll seed words =
    ((words.map (BitVec.ofInt 32)).foldl mixState (BitVec.ofInt 32 seed)).toNat := by
  rw [absorbAll, start_eq, foldl_absorb_toNat]

/-- **The digest of words is that of their bytes.** -/
theorem ofWords_eq_digest (seed : Int) (words : List Int) :
    ofWords seed words =
      (digest (BitVec.ofInt 32 seed) (words.flatMap littleEndian)).toNat := by
  have htail : tail (words.flatMap littleEndian) = [] := by
    refine List.drop_eq_nil_iff.2 (Nat.le_of_eq ?_)
    rw [length_flatMap_littleEndian, Nat.mul_div_cancel _ (by decide)]
  have hcount : BitVec.ofInt 32 (words.length * 4) =
      BitVec.ofNat 32 (words.flatMap littleEndian).length := by
    rw [length_flatMap_littleEndian, ← BitVec.ofInt_natCast, Int.natCast_mul]
    rfl
  rw [ofWords, absorbAll_toNat, close_toNat, digest, blocks_flatMap_littleEndian, htail, hcount,
    mixTail]

/-- Whatever the seed and the words are, the state after them fits 32 bits. -/
theorem absorbAll_mem (seed : Int) (words : List Int) :
    0 ≤ absorbAll seed words ∧ absorbAll seed words < 2 ^ 32 := by
  rw [absorbAll_toNat]
  exact ⟨Int.natCast_nonneg _, Int.ofNat_lt.2 (BitVec.isLt _)⟩

/-- Whatever the state and the count are, a digest fits 32 bits. -/
theorem close_mem (state count : Int) : 0 ≤ close state count ∧ close state count < 2 ^ 32 := by
  rw [close]
  exact ⟨Int.natCast_nonneg _, Int.ofNat_lt.2 (UInt32.toNat_lt _)⟩

end Digest

end SymbolSets
