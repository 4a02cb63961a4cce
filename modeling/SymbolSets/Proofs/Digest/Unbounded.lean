import Mathlib.Data.Int.Bitwise
import SymbolSets.Proofs.Digest.Bytes
import SymbolSets.Proofs.Session.Equality

/-!
# Digests in arithmetic without bounds

The stages of a digest are written down for integers of any size, in two's complement without end.
A mask keeps the low 32 bits here and there: of a word, of a product, of a rotation, but not of a
state that is given. So a state that does not fit 32 bits is rotated with the bits that it has
beyond them, and a negative one with its signs.

A window of 64 bits on the state loses nothing of this. Whatever the state is, the stages are the
same.

## Main definitions

* `Digest.Unbounded.low`: the mask.
* `Digest.Unbounded.start`, `Digest.Unbounded.absorb`, `Digest.Unbounded.close`: the stages.

## Main results

* `Digest.absorb_eq_unbounded`, `Digest.close_eq_unbounded`: the stages are those of arithmetic
  without bounds, for all integers.
* `Digest.murmurHash3_x86_32`: stages, digests of words, states, and digests of sets.
-/

namespace SymbolSets.Digest

namespace Unbounded

/-- The low 32 bits of an integer. -/
def low (x : Int) : Int :=
  x.land 0xFFFFFFFF

/-- The low 32 bits of an integer turned left by `n` places. What the integer has beyond its low 32
bits comes in from the right. -/
def rotate (x : Int) (n : Nat) : Int :=
  low ((x <<< n).lor (x >>> (32 - n)))

/-- What a word contributes to the state. -/
def scramble (word : Int) : Int :=
  low (rotate (low (low word * 0xCC9E2D51)) 15 * 0x1B873593)

/-- The state before any word. -/
def start (seed : Int) : Int :=
  low seed

/-- The state after one more word. -/
def absorb (state word : Int) : Int :=
  low (rotate (state.xor (scramble word)) 13 * 5 + 0xE6546B64)

/-- The digest of a state that has taken in `count` words. -/
def close (state count : Int) : Int :=
  let x := state.xor (low (count * 4))
  let y := low (x.xor (x >>> (16 : Nat)) * 0x85EBCA6B)
  let z := low (y.xor (y >>> (13 : Nat)) * 0xC2B2AE35)
  z.xor (z >>> (16 : Nat))

end Unbounded

open Unbounded

variable {w : Nat} (x y : Int) (n i : Nat)

/-! ### Bits of integers -/

theorem testBit_shiftRight : (x >>> n).testBit i = x.testBit (n + i) := by
  cases x with
  | ofNat m => exact Nat.testBit_shiftRight m
  | negSucc m => exact congrArg not (Nat.testBit_shiftRight m)

/-- A window of `w` bits shows the low bits of an integer. -/
theorem getElem_ofInt (h : i < w) : (BitVec.ofInt w x)[i] = x.testBit i := by
  rw [← BitVec.getLsbD_eq_getElem h]
  cases x with
  | ofNat m =>
    have hofNat : BitVec.ofInt w (Int.ofNat m) = BitVec.ofNat w m := BitVec.ofInt_natCast w m
    rw [hofNat, BitVec.getLsbD_ofNat]
    simp [h, Int.testBit]
  | negSucc m =>
    rw [BitVec.ofInt_negSucc_eq_not_ofNat, BitVec.getLsbD_not, BitVec.getLsbD_ofNat]
    simp [h, Int.testBit]

theorem ofInt_xor : BitVec.ofInt w (x.xor y) = BitVec.ofInt w x ^^^ BitVec.ofInt w y := by
  apply BitVec.eq_of_getElem_eq
  intro i hi
  simp [getElem_ofInt, Int.testBit_lxor]

theorem ofInt_lor : BitVec.ofInt w (x.lor y) = BitVec.ofInt w x ||| BitVec.ofInt w y := by
  apply BitVec.eq_of_getElem_eq
  intro i hi
  simp [getElem_ofInt, Int.testBit_lor]

theorem ofInt_shiftLeft : BitVec.ofInt w (x <<< n) = BitVec.ofInt w x <<< n := by
  have hpow : BitVec.ofNat w (2 ^ n) = BitVec.twoPow w n := by
    apply BitVec.eq_of_toNat_eq
    rw [BitVec.toNat_ofNat, BitVec.toNat_twoPow]
  rw [Int.shiftLeft_eq', BitVec.ofInt_mul, BitVec.ofInt_natCast, hpow,
    ← BitVec.shiftLeft_eq_mul_twoPow]

/-- A window shows what is shifted into it from a window that reaches as far. -/
theorem ofInt_shiftRight {v : Nat} (h : n + w ≤ v) :
    BitVec.ofInt w (x >>> n) = (BitVec.ofInt v x >>> n).setWidth w := by
  apply BitVec.eq_of_getElem_eq
  intro i hi
  have hv : n + i < v := by omega
  simp [getElem_ofInt, hv, testBit_shiftRight]

/-- A window within another one. -/
theorem setWidth_ofInt {v : Nat} (h : w ≤ v) :
    (BitVec.ofInt v x).setWidth w = BitVec.ofInt w x := by
  apply BitVec.eq_of_getElem_eq
  intro i hi
  have hv : i < v := by omega
  simp [getElem_ofInt, hv]

/-! ### The mask -/

theorem low_eq : low x = (BitVec.ofInt 32 x).toNat := by
  cases x with
  | ofNat m =>
    have hmask : m &&& 0xFFFFFFFF = m % 2 ^ 32 := Nat.and_two_pow_sub_one_eq_mod m 32
    exact congrArg Int.ofNat hmask
  | negSucc m =>
    refine congrArg Int.ofNat (Nat.eq_of_testBit_eq fun i => ?_)
    rw [BitVec.ofInt_negSucc_eq_not_ofNat, BitVec.testBit_toNat, BitVec.getLsbD_not,
      BitVec.getLsbD_ofNat, Nat.testBit_ldiff]
    have hmask : (0xFFFFFFFF : Nat).testBit i = decide (i < 32) :=
      Nat.testBit_two_pow_sub_one 32 i
    rw [hmask]
    by_cases hi : i < 32
    · simp [hi]
    · simp [hi]

@[simp] theorem ofInt_low : BitVec.ofInt 32 (low x) = BitVec.ofInt 32 x := by
  rw [low_eq, BitVec.ofInt_natCast, BitVec.ofNat_toNat, BitVec.setWidth_eq]

/-! ### Rotations -/

/-- A rotation needs no more than a window of 64 bits. -/
theorem ofInt_rotate (h : n ≤ 32) : BitVec.ofInt 32 (rotate x n) =
    (BitVec.ofInt 64 x <<< n ||| BitVec.ofInt 64 x >>> (32 - n)).setWidth 32 := by
  have hleft : (BitVec.ofInt 64 x <<< n).setWidth 32 = BitVec.ofInt 32 x <<< n := by
    rw [← ofInt_shiftLeft, setWidth_ofInt _ (by decide), ofInt_shiftLeft]
  rw [rotate, ofInt_low, ofInt_lor, ofInt_shiftLeft,
    ofInt_shiftRight x (32 - n) (v := 64) (by omega), BitVec.setWidth_or, hleft]

/-- A state in its window. -/
theorem toBitVec_ofInt64 : (UInt64.ofInt x).toBitVec = BitVec.ofInt 64 x := by
  apply BitVec.eq_of_toNat_eq
  rw [UInt64.ofInt, UInt64.toBitVec_ofNat', BitVec.toNat_ofNat, BitVec.toNat_ofInt]
  omega

theorem ofInt_toNat (v : BitVec w) (u : Nat) : BitVec.ofInt u v.toNat = v.setWidth u := by
  rw [BitVec.ofInt_natCast, BitVec.ofNat_toNat]

/-! ### The stages -/

open MurmurHash3

theorem start_eq_unbounded (seed : Int) : start seed = Unbounded.start seed := by
  rw [start_eq, Unbounded.start, low_eq]

/-- A product whose low bits are kept is rotated as a word of 32 bits. -/
theorem ofInt_rotate_low_fifteen : BitVec.ofInt 32 (rotate (low x) 15) =
    (BitVec.ofInt 32 x).rotateLeft 15 := by
  rw [ofInt_rotate _ _ (by decide), low_eq, ofInt_toNat, BitVec.rotateLeft_def]
  apply BitVec.eq_of_getElem_eq
  intro i hi
  simp
  grind

theorem unbounded_scramble (word : Int) :
    Unbounded.scramble word = (mixBlock (BitVec.ofInt 32 word)).toNat := by
  rw [Unbounded.scramble, low_eq, BitVec.ofInt_mul, ofInt_rotate_low_fifteen, BitVec.ofInt_mul,
    ofInt_low]
  rfl

/-- **A word is mixed into any state as in arithmetic without bounds.** -/
theorem absorb_eq_unbounded (state word : Int) :
    absorb state word = Unbounded.absorb state word := by
  have hwindow : (UInt64.ofInt state ^^^ (Digest.scramble (UInt32.ofInt word)).toUInt64).toBitVec =
      BitVec.ofInt 64 (state.xor (Unbounded.scramble word)) := by
    rw [ofInt_xor, unbounded_scramble, ofInt_toNat, UInt64.toBitVec_xor, toBitVec_ofInt64,
      UInt32.toBitVec_toUInt64, toBitVec_scramble, toBitVec_ofInt]
  rw [Unbounded.absorb, low_eq, BitVec.ofInt_add, BitVec.ofInt_mul, ofInt_rotate _ _ (by decide),
    ← hwindow, BitVec.ofInt_ofNat, BitVec.ofInt_ofNat]
  simp only [absorb, ← UInt32.toNat_toBitVec, UInt32.toBitVec_add, UInt32.toBitVec_mul,
    UInt32.toBitVec_ofNat, toBitVec_turn, Nat.reduceSub]

/-- The first step of the last mixing needs no more than a window of 64 bits. -/
theorem ofInt_halve : BitVec.ofInt 32 (x.xor (x >>> (16 : Nat))) =
    (BitVec.ofInt 64 x ^^^ BitVec.ofInt 64 x >>> 16).setWidth 32 := by
  rw [ofInt_xor, ofInt_shiftRight x 16 (v := 64) (by decide), BitVec.setWidth_xor,
    setWidth_ofInt _ (by decide)]

/-- The other steps work on what fits 32 bits. -/
theorem xor_shiftRight_toNat (v : BitVec w) :
    (v.toNat : Int).xor ((v.toNat : Int) >>> n) = (v ^^^ v >>> n).toNat := by
  rw [BitVec.toNat_xor, BitVec.toNat_ushiftRight]
  rfl

/-- **The last mixing of any state is that of arithmetic without bounds.** -/
theorem close_eq_unbounded (state count : Int) :
    close state count = Unbounded.close state count := by
  have hwindow : (UInt64.ofInt state ^^^ (UInt32.ofInt (count * 4)).toUInt64).toBitVec =
      BitVec.ofInt 64 (state.xor (low (count * 4))) := by
    rw [ofInt_xor, low_eq, ofInt_toNat, UInt64.toBitVec_xor, toBitVec_ofInt64,
      UInt32.toBitVec_toUInt64, toBitVec_ofInt]
  simp only [close, ← UInt32.toNat_toBitVec, toBitVec_avalanche, toBitVec_halve, hwindow]
  rw [Unbounded.close, low_eq (_ * 0x85EBCA6B), BitVec.ofInt_mul, ofInt_halve]
  simp only [xor_shiftRight_toNat, low_eq (_ * 0xC2B2AE35), BitVec.ofInt_mul, ofInt_toNat,
    BitVec.setWidth_eq, BitVec.ofInt_ofNat]

/-! ### Digests -/

/-- **Digests are those of MurmurHash3.** The stages of a digest are those of arithmetic without
bounds, for all integers. The digest of a list of words with any seed is that of the bytes of their
low 32 bits with the low 32 bits of the seed. All states on the way fit 32 bits, and so does a
digest, whatever state and count it is made of. The digest of a set is that of the bounds of its
runs, with the seed `0`. -/
theorem murmurHash3_x86_32 :
    ((∀ seed, start seed = Unbounded.start seed) ∧
      (∀ state word, absorb state word = Unbounded.absorb state word) ∧
      ∀ state count, close state count = Unbounded.close state count) ∧
    (∀ seed words, ofWords seed words =
      (digest (BitVec.ofInt 32 seed) (words.flatMap littleEndian)).toNat) ∧
    (∀ (seed : Int) (words : List Int) (k : Nat),
      0 ≤ absorbAll seed (words.take k) ∧ absorbAll seed (words.take k) < 2 ^ 32) ∧
    (∀ state count, 0 ≤ close state count ∧ close state count < 2 ^ 32) ∧
    ∀ {σ : Store} {name place o}, σ.value? name = some (.runs place) →
      σ.runs[place]? = some o →
        (Step.run ⟨.send name (.query .digest), [], none⟩ σ).2.result =
          .ok (.int (digest 0 ((o.runs.flatMap fun x => [x.lo, x.hi]).flatMap
            littleEndian)).toNat) := by
  refine ⟨⟨start_eq_unbounded, absorb_eq_unbounded, close_eq_unbounded⟩, ofWords_eq_digest,
    fun seed words k => absorbAll_mem seed _, close_mem, fun {σ name place o} hname ho => ?_⟩
  rw [Session.result_digest hname, Store.runsAt_eq_of_getElem? ho, Runs.digest, ofWords_eq_digest,
    Runs.bounds]
  rfl

/-- Words of more than 32 bits, one of them negative, and a set with a reserved token type. -/
theorem murmurHash3_x86_32_negative :
    let σ := Session.run .initial [⟨.make .copy, [.list [.int (-1), .int 1, .int 2]], some "s"⟩]
    (0 ≤ absorbAll (-7) [2 ^ 40 + 1] ∧ absorbAll (-7) [2 ^ 40 + 1] < 2 ^ 32) ∧
      (Step.run ⟨.send "s" (.query .digest), [], none⟩ σ).2.result =
        .ok (.int (digest 0 (([⟨-1, -1⟩, ⟨1, 2⟩] : Runs).flatMap (fun x => [x.lo, x.hi]) |>.flatMap
          littleEndian)).toNat) := by
  intro σ
  obtain ⟨-, -, hstates, -, hset⟩ := murmurHash3_x86_32
  have hname : σ.value? "s" = some (.runs 2) := by rfl
  have ho : σ.runs[2]? = some ⟨.plain [⟨-1, -1⟩, ⟨1, 2⟩], .bool false⟩ := by rfl
  have hfirst := hstates (-7) [2 ^ 40 + 1, -2] 1
  have hdigest := hset hname ho
  exact ⟨hfirst, hdigest⟩

end SymbolSets.Digest
