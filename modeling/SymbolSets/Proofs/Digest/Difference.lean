import Mathlib.Logic.Function.Basic
import Mathlib.Tactic.SplitIfs
import SymbolSets.Proofs.Digest.Bytes
import SymbolSets.Proofs.Session.Equality

/-!
# Digests of words that differ in one place

Every operation that a digest is made of can be undone: a product with an odd factor, a rotation, an
exclusive or with a fixed word, and one with a shift of the word itself. So different words lead a
state to different states, the same word leads different states to different states, and the last
mixing keeps different states apart. What is left of a single difference can therefore never vanish
again, however many words follow.

Two differences can cancel each other out, so nothing is said of rows that differ in more places.

## Main definitions

* `Digest.differences`: in how many places the low 32 bits of two rows of words differ.

## Main results

* `MurmurHash3.mixState_injective_block`, `MurmurHash3.mixState_injective_state`,
  `MurmurHash3.finalMix_injective`: the stages lose nothing.
* `Digest.foldl_mixState_ne`: a single difference stays.
* `Digest.digests_ne_of_one_difference`: digests of words, and digests of sets.
-/

namespace SymbolSets

namespace MurmurHash3

variable {w n : Nat}

/-! ### Operations that can be undone -/

/-- A factor that has an inverse loses nothing. -/
theorem mul_injective {c d : BitVec w} (h : c * d = BitVec.ofNat w 1) :
    Function.Injective fun x : BitVec w => x * c := by
  intro x y hxy
  calc x = x * c * d := by rw [BitVec.mul_assoc, h, BitVec.mul_one]
    _ = y * c * d := congrArg (· * d) hxy
    _ = y := by rw [BitVec.mul_assoc, h, BitVec.mul_one]

/-- A rotation is undone by turning back. -/
theorem rotateRight_rotateLeft (h : n < w) (x : BitVec w) :
    (x.rotateLeft n).rotateRight n = x := by
  apply BitVec.eq_of_getElem_eq
  intro i hi
  simp only [BitVec.getElem_rotateRight, BitVec.getElem_rotateLeft, Nat.mod_eq_of_lt h]
  split_ifs
  · omega
  · simp
  · congr 1
    omega
  · omega

theorem rotateLeft_injective (h : n < w) :
    Function.Injective fun x : BitVec w => x.rotateLeft n := by
  intro x y hxy
  rw [← rotateRight_rotateLeft h x, ← rotateRight_rotateLeft h y]
  exact congrArg (BitVec.rotateRight · n) hxy

/-- A word that a shift leaves as it is has no bits. -/
theorem eq_zero_of_ushiftRight_eq (hn : 0 < n) {x : BitVec w} (h : x >>> n = x) : x = 0#w := by
  have hdiv : x.toNat / 2 ^ n = x.toNat := by
    rw [← Nat.shiftRight_eq_div_pow, ← BitVec.toNat_ushiftRight, h]
  have hone : 1 < 2 ^ n := Nat.one_lt_two_pow (Nat.ne_of_gt hn)
  refine BitVec.eq_of_toNat_eq (Nat.eq_zero_of_not_pos fun hpos => ?_)
  exact Nat.ne_of_lt (Nat.div_lt_self hpos hone) hdiv

/-- A word mixed with its own shift can be told from the mixture: where two words with the same
mixture differ, they differ also in the shift. -/
theorem xor_ushiftRight_injective (hn : 0 < n) :
    Function.Injective fun x : BitVec w => x ^^^ x >>> n := by
  intro x y h
  have hshift : (x ^^^ y) >>> n = x ^^^ y := calc
    (x ^^^ y) >>> n = x ^^^ (x ^^^ x >>> n) ^^^ y >>> n := by
      rw [BitVec.ushiftRight_xor_distrib, ← BitVec.xor_assoc, BitVec.xor_self, BitVec.zero_xor]
    _ = x ^^^ (y ^^^ y >>> n) ^^^ y >>> n := congrArg (x ^^^ · ^^^ y >>> n) h
    _ = x ^^^ y := by
      rw [BitVec.xor_assoc, BitVec.xor_assoc, BitVec.xor_self, BitVec.xor_zero]
  exact BitVec.xor_eq_zero_iff.1 (eq_zero_of_ushiftRight_eq hn hshift)

/-! ### The stages lose nothing -/

theorem mixBlock_injective : Function.Injective mixBlock := by
  have hfirst := mul_injective (w := 32) (c := 0xCC9E2D51#32) (d := 0xDEE13BB1#32) (by decide)
  have hsecond := mul_injective (w := 32) (c := 0x1B873593#32) (d := 0x56ED309B#32) (by decide)
  have hturn := rotateLeft_injective (w := 32) (n := 15) (by decide)
  exact hsecond.comp (hturn.comp hfirst)

/-- What a state goes through once a block has been mixed in. -/
theorem advance_injective :
    Function.Injective fun x : BitVec 32 => x.rotateLeft 13 * 5#32 + 0xE6546B64#32 := by
  have hturn := rotateLeft_injective (w := 32) (n := 13) (by decide)
  have hmul := mul_injective (w := 32) (c := 5#32) (d := 0xCCCCCCCD#32) (by decide)
  intro x y h
  exact hturn (hmul ((BitVec.add_left_inj _).1 h))

/-- Different blocks lead a state to different states. -/
theorem mixState_injective_block (h : BitVec 32) : Function.Injective (mixState h) := by
  intro k l hkl
  have hmixed : h ^^^ mixBlock k = h ^^^ mixBlock l := advance_injective hkl
  exact mixBlock_injective ((BitVec.xor_right_inj h).1 hmixed)

/-- A block leads different states to different states. -/
theorem mixState_injective_state (k : BitVec 32) : Function.Injective (mixState · k) := by
  intro g h hgh
  have hmixed : g ^^^ mixBlock k = h ^^^ mixBlock k := advance_injective hgh
  exact (BitVec.xor_left_inj _).1 hmixed

theorem finalMix_injective : Function.Injective finalMix := by
  have hfirst := mul_injective (w := 32) (c := 0x85EBCA6B#32) (d := 0xA5CB9243#32) (by decide)
  have hsecond := mul_injective (w := 32) (c := 0xC2B2AE35#32) (d := 0x7ED1B41D#32) (by decide)
  have hsixteen := xor_ushiftRight_injective (w := 32) (n := 16) (by decide)
  have hthirteen := xor_ushiftRight_injective (w := 32) (n := 13) (by decide)
  exact hsixteen.comp (hsecond.comp (hthirteen.comp (hfirst.comp hsixteen)))

/-- The same blocks lead different states to different states. -/
theorem foldl_mixState_injective : (ks : List (BitVec 32)) →
    Function.Injective fun h => ks.foldl mixState h
  | [] => fun _ _ h => h
  | k :: ks => (foldl_mixState_injective ks).comp (mixState_injective_state k)

end MurmurHash3

theorem Runs.length_bounds (xs : Runs) : xs.bounds.length = xs.length * 2 := by
  simp only [bounds, List.length_flatMap, List.length_cons, List.length_nil, List.map_const',
    List.sum_replicate_nat]

namespace Digest

open MurmurHash3

/-! ### Rows of words that differ in one place -/

/-- The number of places in which the low 32 bits of two rows of words are not the same. -/
def differences (vs ws : List Int) : Nat :=
  (vs.zip ws).countP fun p => p.1 % 2 ^ 32 ≠ p.2 % 2 ^ 32

theorem ofInt_eq_iff {v w : Int} :
    BitVec.ofInt 32 v = BitVec.ofInt 32 w ↔ v % 2 ^ 32 = w % 2 ^ 32 := by
  rw [← BitVec.toNat_inj, BitVec.toNat_ofInt, BitVec.toNat_ofInt]
  omega

section Rows

variable {vs ws : List Int} {v w : Int}

theorem differences_cons_of_eq (h : v % 2 ^ 32 = w % 2 ^ 32) :
    differences (v :: vs) (w :: ws) = differences vs ws := by
  rw [differences, List.zip_cons_cons, List.countP_cons_of_neg (by simpa using h), differences]

theorem differences_cons_of_ne (h : v % 2 ^ 32 ≠ w % 2 ^ 32) :
    differences (v :: vs) (w :: ws) = differences vs ws + 1 := by
  rw [differences, List.zip_cons_cons, List.countP_cons_of_pos (by simpa using h), differences]

end Rows

/-- Rows without a difference are the same blocks. -/
theorem map_ofInt_eq : {vs ws : List Int} → vs.length = ws.length → differences vs ws = 0 →
    vs.map (BitVec.ofInt 32) = ws.map (BitVec.ofInt 32)
  | [], [], _, _ => rfl
  | v :: vs, w :: ws, hlength, h => by
    have hrest : vs.length = ws.length := Nat.succ.inj hlength
    by_cases hvw : v % 2 ^ 32 = w % 2 ^ 32
    · rw [differences_cons_of_eq hvw] at h
      rw [List.map_cons, List.map_cons, ofInt_eq_iff.2 hvw, map_ofInt_eq hrest h]
    · rw [differences_cons_of_ne hvw] at h
      exact absurd h (Nat.succ_ne_zero _)

/-- **A single difference stays.** Up to the difference the states are the same, the words that
differ lead to different states, and the words that follow keep these apart. -/
theorem foldl_mixState_ne : {vs ws : List Int} → vs.length = ws.length → differences vs ws = 1 →
    (x : BitVec 32) → (vs.map (BitVec.ofInt 32)).foldl mixState x ≠
      (ws.map (BitVec.ofInt 32)).foldl mixState x
  | [], [], _, h, _ => by cases h
  | v :: vs, w :: ws, hlength, h, x => by
    have hrest : vs.length = ws.length := Nat.succ.inj hlength
    rw [List.map_cons, List.map_cons, List.foldl_cons, List.foldl_cons]
    by_cases hvw : v % 2 ^ 32 = w % 2 ^ 32
    · rw [differences_cons_of_eq hvw] at h
      rw [ofInt_eq_iff.2 hvw]
      exact foldl_mixState_ne hrest h _
    · rw [differences_cons_of_ne hvw] at h
      rw [map_ofInt_eq hrest (Nat.succ.inj h)]
      intro heq
      have hstates := foldl_mixState_injective _ heq
      exact hvw (ofInt_eq_iff.1 (mixState_injective_block x hstates))

/-! ### Digests -/

/-- What is mixed into the digest of words, for any seed and any count. -/
theorem close_absorbAll (seed count : Int) (words : List Int) : close (absorbAll seed words) count =
    (finalMix ((words.map (BitVec.ofInt 32)).foldl mixState (BitVec.ofInt 32 seed) ^^^
      BitVec.ofInt 32 (count * 4))).toNat := by
  rw [absorbAll, start_eq, foldl_absorb_toNat, close_toNat]

theorem close_absorbAll_ne (seed count : Int) {vs ws : List Int} (hlength : vs.length = ws.length)
    (h : differences vs ws = 1) :
    close (absorbAll seed vs) count ≠ close (absorbAll seed ws) count := by
  rw [close_absorbAll, close_absorbAll]
  intro heq
  have hmixed := finalMix_injective (BitVec.toNat_inj.1 (Int.ofNat_inj.1 heq))
  exact foldl_mixState_ne hlength h _ ((BitVec.xor_left_inj _).1 hmixed)

/-- **Words that differ in one place have different digests.** This holds for every seed, for every
count and wherever the place is, if the low 32 bits of the words there are not the same and those of
all other words are. So sets of as many runs, in one store or in two, have different digests if
exactly one of their bounds differs in its low 32 bits. -/
theorem digests_ne_of_one_difference :
    (∀ (seed count : Int) (vs ws : List Int), vs.length = ws.length → differences vs ws = 1 →
      close (absorbAll seed vs) count ≠ close (absorbAll seed ws) count) ∧
    ∀ {σ τ : Store} {i j : Nat} {s t : StoredRuns}, σ.runs[i]? = some s → τ.runs[j]? = some t →
      s.runs.length = t.runs.length → differences s.runs.bounds t.runs.bounds = 1 →
        ∃ m n, Query.answer σ .digest (.runs i) [] = .ok (.value (.int m)) ∧
          Query.answer τ .digest (.runs j) [] = .ok (.value (.int n)) ∧ m ≠ n := by
  refine ⟨fun seed count vs ws => close_absorbAll_ne seed count,
    fun {σ τ i j s t} hs ht hlength h => ⟨_, _, Query.answer_digest, Query.answer_digest, ?_⟩⟩
  have hbounds : s.runs.bounds.length = t.runs.bounds.length := by
    rw [Runs.length_bounds, Runs.length_bounds, hlength]
  rw [Store.runsAt_eq_of_getElem? hs, Store.runsAt_eq_of_getElem? ht, Runs.digest, Runs.digest,
    ofWords, ofWords, hbounds]
  exact close_absorbAll_ne 0 _ hbounds h

/-- Words of more than 32 bits that differ in the last place, and two sets of which one has a bound
of more than 32 bits. -/
theorem digests_ne_of_one_difference_last :
    let σ := Session.run .initial
      [⟨.make .copy, [.list [.int (-1), .int 1, .int 2, .int 3, .int 4]], some "s"⟩,
       ⟨.make .copy, [.list [.int (-1)]], some "t"⟩,
       ⟨.send "t" (.mutate .add), [.int 1, .int (2 ^ 32 + 5)], none⟩]
    close (absorbAll (-3) [1, 2 ^ 32 + 5, -1]) 7 ≠ close (absorbAll (-3) [2 ^ 32 + 1, 5, 7]) 7 ∧
      ∃ m n, Query.answer σ .digest (.runs 2) [] = .ok (.value (.int m)) ∧
        Query.answer σ .digest (.runs 3) [] = .ok (.value (.int n)) ∧ m ≠ n := by
  intro σ
  have hs : σ.runs[2]? = some ⟨.plain [⟨-1, -1⟩, ⟨1, 4⟩], .bool false⟩ := by rfl
  have ht : σ.runs[3]? = some ⟨.plain [⟨-1, -1⟩, ⟨1, 2 ^ 32 + 5⟩], .bool false⟩ := by rfl
  obtain ⟨hwords, hsets⟩ := digests_ne_of_one_difference
  exact ⟨hwords (-3) 7 _ _ rfl (by decide), hsets hs ht rfl (by decide)⟩

end Digest

end SymbolSets
