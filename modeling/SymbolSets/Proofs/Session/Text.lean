import SymbolSets.Proofs.Session.Equality
import SymbolSets.Proofs.Session.Records
import SymbolSets.Proofs.Store.Text

/-!
# Texts of stored sets

A set can be asked for its text by numbers or by characters, and for its description. Two sets give
the same text by characters if and only if they are equal, whatever they hold. By numbers their
bounds are shown as they are written, and the texts are the same if and only if the sets are equal
with their bounds written alike; so they are the same for all equal sets without truth values. The
descriptions are the same if and only if, besides, both or neither of the sets are frozen.

## Main definitions

* `SpelledRuns.IsPlain`: no bound of the set is written as a truth value.
* `Query.FindsEqual`: a set is asked whether it is equal to another one, and is.
* `Query.AgreeIff`: when two sets answer a question by the same text.

## Main results

* `Store.texts_agree_iff_written_alike`: what texts and descriptions tell.
* `Store.not_texts_agree_iff_equal`: equal sets with different texts.
-/

namespace SymbolSets

namespace SpelledRuns

/-- All bounds are written as integers. -/
def IsPlain (xs : SpelledRuns) : Prop :=
  ∀ x ∈ xs.spans, x = .plain x.interval

theorem IsPlain.spans_eq {xs : SpelledRuns} (h : xs.IsPlain) : xs.spans = xs.runs.map .plain := by
  rw [← xs.map_interval_spans, List.map_map, ← List.map_id xs.spans, List.map_map]
  exact List.map_congr_left h

/-- Where all bounds are written as integers, the runs tell how they are written. -/
theorem IsPlain.spans_eq_iff {xs ys : SpelledRuns} (hxs : xs.IsPlain) (hys : ys.IsPlain) :
    xs.spans = ys.spans ↔ xs.runs = ys.runs := by
  constructor
  · intro h
    rw [← xs.map_interval_spans, h, ys.map_interval_spans]
  · intro h
    rw [hxs.spans_eq, hys.spans_eq, h]

end SpelledRuns

variable {σ : Store} {i j : Nat} {s t : StoredRuns}

namespace Query

/-- The set at `i` answers that it is equal to the set at `j`. -/
def FindsEqual (σ : Store) (i j : Nat) : Prop :=
  answer σ .equal (.runs i) [.runs j] = .ok (.value (.bool true))

/-- The sets at `i` and `j` answer the question by texts, which are the same if and only if `P`. -/
def AgreeIff (σ : Store) (q : Query) (operands : List Value) (i j : Nat) (P : Prop) : Prop :=
  ∃ a b, q.answer σ (.runs i) operands = .ok (.value (.text a)) ∧
    q.answer σ (.runs j) operands = .ok (.value (.text b)) ∧ (a = b ↔ P)

theorem findsEqual_iff (hs : σ.runs[i]? = some s) (ht : σ.runs[j]? = some t) :
    FindsEqual σ i j ↔ s.runs = t.runs := by
  rw [FindsEqual, answer_equal_iff, Store.runsAt_eq_of_getElem? hs,
    Store.runsAt_eq_of_getElem? ht]

theorem answer_shown (hs : σ.runs[i]? = some s) :
    answer σ .shown (.runs i) [] = .ok (.value (.text (s.text .numbers))) := by
  rw [← Store.spelledAt_eq_of_getElem? hs]
  rfl

theorem answer_textOfNumbers (hs : σ.runs[i]? = some s) :
    answer σ .textOfNumbers (.runs i) [] = .ok (.value (.text (s.text .numbers))) := by
  simp only [answer, answerObject, hs, answerRuns]

theorem answer_textOfCharacters (hs : σ.runs[i]? = some s) (characters : Value) :
    answer σ .textOfCharacters (.runs i) [characters] = .ok (.value (.text
      (s.text (if σ.isTrue characters then .characters else .numbers)))) := by
  simp only [answer, answerObject, hs, answerRuns, plainText]

end Query

/-- **What texts tell.** The texts of two stored sets by characters are the same if and only if the
sets are equal. The texts by numbers are the same if and only if the sets are equal with their
bounds written alike, and the descriptions if and only if, besides, both or neither of the sets are
frozen. Equal sets whose bounds are all integers are written alike. -/
theorem Store.texts_agree_iff_written_alike (hs : σ.runs[i]? = some s) (ht : σ.runs[j]? = some t) :
    (∀ {characters}, σ.isTrue characters →
      Query.AgreeIff σ .textOfCharacters [characters] i j (Query.FindsEqual σ i j)) ∧
    (∀ {characters}, ¬ σ.isTrue characters →
      Query.AgreeIff σ .textOfCharacters [characters] i j (s.spans = t.spans)) ∧
    Query.AgreeIff σ .shown [] i j (s.spans = t.spans) ∧
    Query.AgreeIff σ .textOfNumbers [] i j (s.spans = t.spans) ∧
    Query.AgreeIff σ .description [] i j
      (s.spans = t.spans ∧ (σ.isFrozen i s ↔ σ.isFrozen j t)) ∧
    (s.spans = t.spans → Query.FindsEqual σ i j) ∧
    (s.IsPlain → t.IsPlain → (s.spans = t.spans ↔ Query.FindsEqual σ i j)) := by
  rw [Query.findsEqual_iff hs ht]
  refine ⟨fun {characters} htrue => ?_, fun {characters} hfalse => ?_, ?_, ?_, ?_, fun h => ?_,
    fun hsPlain htPlain => hsPlain.spans_eq_iff htPlain⟩
  · refine ⟨_, _, Query.answer_textOfCharacters hs _, Query.answer_textOfCharacters ht _, ?_⟩
    rw [if_pos htrue]
    exact SpelledRuns.text_characters_inj
  · refine ⟨_, _, Query.answer_textOfCharacters hs _, Query.answer_textOfCharacters ht _, ?_⟩
    rw [if_neg hfalse]
    exact SpelledRuns.text_numbers_inj
  · exact ⟨_, _, Query.answer_shown hs, Query.answer_shown ht, SpelledRuns.text_numbers_inj⟩
  · exact ⟨_, _, Query.answer_textOfNumbers hs, Query.answer_textOfNumbers ht,
      SpelledRuns.text_numbers_inj⟩
  · refine ⟨σ.describe (.runs i), σ.describe (.runs j), rfl, rfl, ?_⟩
    rw [describe_runs hs, describe_runs ht, SpelledRuns.description_inj, Bool.coe_iff_coe]
  · rw [← s.map_interval_spans, h, t.map_interval_spans]

/-- A set of code points that texts of sets have a use for, of both reserved token types and of more
than all characters, another one, and a frozen copy of the first; and a range from a truth value
beside one from an integer. -/
theorem Store.texts_agree_iff_written_alike_punctuation :
    let punctuation : List Operand := [.int 39, .int 44, .int 46, .int 48, .int 0xD800, .int 123]
    let σ := Session.run .initial
      [⟨.make .copy, [.list (.int (-1) :: punctuation)], some "s"⟩,
       ⟨.make .range, [.int (-2), .int 0x110000], some "t"⟩,
       ⟨.make .copy, [.register "s"], some "u"⟩,
       ⟨.send "u" (.mutate .freeze), [], none⟩,
       ⟨.make .range, [.bool false, .int 5], none⟩,
       ⟨.make .range, [.int 0, .int 5], none⟩]
    (∃ a b, Query.answer σ .textOfCharacters (.runs 2) [.bool true] = .ok (.value (.text a)) ∧
      Query.answer σ .textOfCharacters (.runs 3) [.bool true] = .ok (.value (.text b)) ∧ a ≠ b) ∧
    (∃ a b, Query.answer σ .description (.runs 2) [] = .ok (.value (.text a)) ∧
      Query.answer σ .description (.runs 4) [] = .ok (.value (.text b)) ∧ a ≠ b) ∧
    (∃ a, Query.answer σ .textOfCharacters (.runs 5) [.bool true] = .ok (.value (.text a)) ∧
      Query.answer σ .textOfCharacters (.runs 6) [.bool true] = .ok (.value (.text a))) ∧
    ∃ a b, Query.answer σ .shown (.runs 5) [] = .ok (.value (.text a)) ∧
      Query.answer σ .shown (.runs 6) [] = .ok (.value (.text b)) ∧ a ≠ b := by
  intro punctuation σ
  have hne : ¬ σ.runsAt 2 = σ.runsAt 3 := by decide +kernel +revert
  have heq : σ.runsAt 5 = σ.runsAt 6 := by decide +kernel +revert
  have h2 : 2 < σ.runs.size := by decide +kernel +revert
  have h3 : 3 < σ.runs.size := by decide +kernel +revert
  have h4 : 4 < σ.runs.size := by decide +kernel +revert
  have h5 : 5 < σ.runs.size := by decide +kernel +revert
  have h6 : 6 < σ.runs.size := by decide +kernel +revert
  have hfrozen : ¬ (σ.isFrozen 2 σ.runs[2] ↔ σ.isFrozen 4 σ.runs[4]) := by decide +kernel +revert
  have hwritten : ¬ σ.runs[5].spans = σ.runs[6].spans := by decide +kernel +revert
  obtain ⟨hdifferent, -⟩ := texts_agree_iff_written_alike (Array.getElem?_eq_getElem h2)
    (Array.getElem?_eq_getElem h3)
  obtain ⟨-, -, -, -, hdescription, -⟩ := texts_agree_iff_written_alike
    (Array.getElem?_eq_getElem h2) (Array.getElem?_eq_getElem h4)
  obtain ⟨hsame, -, hshown, -⟩ := texts_agree_iff_written_alike (Array.getElem?_eq_getElem h5)
    (Array.getElem?_eq_getElem h6)
  have hcharacters : σ.isTrue (.bool true) = true := rfl
  obtain ⟨a, b, ha, hb, hab⟩ := hdifferent hcharacters
  obtain ⟨c, d, hc, hd, hcd⟩ := hdescription
  obtain ⟨e, f, he, hf, hef⟩ := hsame hcharacters
  obtain ⟨g, h, hg, hh, hgh⟩ := hshown
  refine ⟨⟨a, b, ha, hb, fun heq' => hne (Query.answer_equal_iff.1 (hab.1 heq'))⟩,
    ⟨c, d, hc, hd, fun heq' => hfrozen (hcd.1 heq').2⟩, ⟨e, he, ?_⟩,
    g, h, hg, hh, fun heq' => hwritten (hgh.1 heq')⟩
  rw [hef.2 (Query.answer_equal_iff.2 heq)]
  exact hf

/-- Equal sets do not always have the same text by numbers. The range between the truth values and
that from `0` to `1` are equal. -/
theorem Store.not_texts_agree_iff_equal :
    ¬ ∀ {σ : Store} {i j : Nat}, σ.Reachable → i < σ.runs.size → j < σ.runs.size →
      Query.AgreeIff σ .shown [] i j (Query.FindsEqual σ i j) := by
  intro h
  let σ := Session.run .initial
    [⟨.make .range, [.bool false, .bool true], none⟩, ⟨.make .range, [.int 0, .int 1], none⟩]
  have hi : 2 < σ.runs.size := by decide +kernel +revert
  have hj : 3 < σ.runs.size := by decide +kernel +revert
  have hequal : σ.runsAt 2 = σ.runsAt 3 := by decide +kernel +revert
  have htexts : σ.shown (.runs 2) ≠ σ.shown (.runs 3) := by decide +kernel +revert
  obtain ⟨a, b, ha, hb, hab⟩ := h ⟨_, rfl⟩ hi hj
  cases ha
  cases hb
  exact htexts (hab.2 (Query.answer_equal_iff.2 hequal))

end SymbolSets
