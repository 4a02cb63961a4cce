import Mathlib.Data.List.Sort
import SymbolSets.Proofs.Runs.Size
import SymbolSets.Proofs.Session.Canonical
import SymbolSets.Proofs.Store.Names
import SymbolSets.Proofs.Text.Reading

/-!
# Sets shown by names

A set that is shown by the names of a vocabulary is shown element by element. The two reserved token
types have names of their own, whatever the vocabulary says about them. Every other element is shown
by the first name that the vocabulary has for it, and by its number if there is none. So the text
depends on the integers of the set and on the names, and on nothing else.

## Main definitions

* `Vocabulary.Names.item`, `Vocabulary.Names.row`: one element, and several in a row.

## Main results

* `Vocabulary.Names.item_ne_nil`, `Vocabulary.Names.item_of_not_named`: each element is shown by
  something, and by its number if no list reaches it.
* `Store.namedText_eq_row`: the text of a stored set by the names of a stored vocabulary.
-/

namespace SymbolSets

variable {σ τ : Store} {i place : Nat} {s : StoredRuns} {ns : List Int} {n : Int}

namespace Vocabulary.Names

variable (names : Names)

/-- How an integer is shown: by a name of its own, or by the first name of the three lists that is
not empty, or by its number. -/
def item (n : Int) : Text :=
  if n = -1 then Text.ofString "<EOF>"
  else if n = -2 then Text.ofString "<EPSILON>"
  else
    ((given? names.display n).or ((given? names.literal n).or (given? names.symbolic n))).getD
      (Text.ofInt n)

/-- How integers are shown in a row: with commas between them, and in braces if there are more than
one. -/
def row (ns : List Int) : Text :=
  if 1 < ns.length then
    Text.ofString "\x7b" ++ Text.joinComma (ns.map names.item) ++ Text.ofString "\x7d"
  else Text.joinComma (ns.map names.item)

/-- No element is shown by nothing. -/
theorem item_ne_nil (n : Int) : names.item n ≠ [] := by
  rw [item]
  split_ifs
  · exact List.cons_ne_nil _ _
  · exact List.cons_ne_nil _ _
  · cases hname : (given? names.display n).or
        ((given? names.literal n).or (given? names.symbolic n)) with
    | none =>
      obtain ⟨c, hc, -⟩ := Text.startsWith_ofInt n
      rw [Option.getD_none]
      intro hnil
      rw [hnil] at hc
      cases hc
    | some name =>
      simp only [Option.or_eq_some_iff] at hname
      rcases hname with hname | ⟨-, hname | ⟨-, hname⟩⟩ <;> exact given?_ne_nil hname

variable {names}

/-- **What no list reaches is shown by its number,** unless it is reserved. -/
theorem item_of_not_named (h : names.vocabulary.highest < n ∨ n < -2) :
    names.item n = Text.ofInt n := by
  have hnone : given? names.display n = none ∧ given? names.literal n = none ∧
      given? names.symbolic n = none := by
    rcases h with h | h
    · obtain ⟨hd, hl, hs⟩ := length_le_of_highest_lt h
      exact ⟨given?_of_length_le hd, given?_of_length_le hl, given?_of_length_le hs⟩
    · have hneg : n < 0 := by omega
      exact ⟨given?_of_lt hneg, given?_of_lt hneg, given?_of_lt hneg⟩
  have hlow : n ≠ -1 ∧ n ≠ -2 := by
    rcases h with h | h
    · have hd := (length_le_of_highest_lt h).1
      omega
    · omega
  obtain ⟨hd, hl, hs⟩ := hnone
  rw [item, if_neg hlow.1, if_neg hlow.2, hd, hl, hs]
  rfl

end Vocabulary.Names

open Vocabulary (Names)

variable {names : Names}

/-! ### The text of a set -/

/-- An element is shown by its item, whether it is reserved or asked for in the vocabulary. -/
theorem Store.NamesBy.elim_reservedName? (h : τ.NamesBy place names) (n : Int) :
    (Runs.reservedName? n).elim (τ.name? place n) .ok = .ok (names.item n) := by
  rw [Runs.reservedName?, endOfInput, epsilon, Names.item]
  split_ifs with hend heps
  · rfl
  · rfl
  · have hown : ¬ n = endOfInput := hend
    rw [Option.elim_none, Store.name?, h.vocabularyAt_eq, Vocabulary.displayName_names, if_neg hown]

/-- The set by the names of a vocabulary is the row of its elements. -/
theorem Store.NamesBy.namedText? (h : τ.NamesBy place names) {xs : Runs} (hxs : xs ≠ []) :
    xs.namedText? (τ.name? place) = .ok (names.row xs.elements) := by
  have hitems : xs.namedItems? (τ.name? place) = .ok (xs.elements.map names.item) := by
    simp only [Runs.namedItems?, h.elim_reservedName?]
    exact List.mapM_pure
  have hne : xs.isEmpty = false := List.isEmpty_eq_false_iff.2 hxs
  rw [Runs.namedText?, hne, hitems]
  simp only [Runs.enclose, Names.row, Runs.size_eq_length_elements, Except.map]
  rfl

/-- **A set shown by names.** Three lists of names are stored as a vocabulary that names by them.
The text of a stored set by such a vocabulary is the row of its integers in ascending order, whether
or not its numbers are to be shown as characters otherwise. Each integer is shown by something, and
by its number if it lies above all lists or below the reserved ones. -/
theorem Store.namedText_eq_row (hσ : σ.Reachable) (hs : σ.runs[i]? = some s) (hne : s.runs ≠ [])
    (hext : σ.Extends τ) (hnames : τ.NamesBy place names) (hasc : ns.Pairwise (· < ·))
    (hns : ∀ n, n ∈ ns ↔ s.runs.Holds n) :
    (∀ {υ : Store} {a b c : Nat}, υ.listAt a = names.literal.map .ofName? →
      υ.listAt b = names.symbolic.map .ofName? → υ.listAt c = names.display.map .ofName? →
      ∃ built ω, υ.vocabulary? (.list a) (.list b) (.list c) = .ok (.vocabulary built, ω) ∧
        ω.NamesBy built names) ∧
    (∀ characters, Query.answer τ .textOfBoth (.runs i) [characters, .vocabulary place] =
      .ok (.value (.text (names.row ns)))) ∧
    Query.answer τ .textOfNames (.runs i) [.vocabulary place] =
      .ok (.value (.text (names.row ns))) ∧
    (∀ n ∈ ns, names.item n ≠ []) ∧
    ∀ n ∈ ns, names.vocabulary.highest < n ∨ n < -2 → names.item n = Text.ofInt n := by
  have hcanonical : s.runs.Canonical := hσ.canonical s (Array.mem_of_getElem? hs)
  have hrow : s.runs.elements = ns :=
    (Runs.pairwise_elements hcanonical).eq_of_mem_iff hasc fun n => by
      rw [Runs.mem_elements, hns]
  have htext := hnames.namedText? hne
  rw [hrow] at htext
  refine ⟨fun ha hb hc => ⟨_, _, vocabulary?_lists ha hb hc, namesBy_addVocabulary _ names⟩,
    fun characters => ?_, ?_, fun n _ => names.item_ne_nil n, fun n _ => Names.item_of_not_named⟩
  · simp only [Query.answer, Query.answerObject, hext.runs hs, Query.answerRuns, Query.namedText?,
      htext, Except.map]
  · simp only [Query.answer, Query.answerObject, hext.runs hs, Query.answerRuns, Query.namedText?,
      htext, Except.map]

/-- Lists of different lengths, with a name that is missing and one that is empty in each of two of
them: names from all but the list for display, a number within the lists and one above them. -/
theorem Store.namedText_eq_row_unequal_lists :
    let names : Names :=
      ⟨[some (Text.ofString "'+'"), some [], none, some (Text.ofString "'-'")],
        [some (Text.ofString "PLUS"), some (Text.ofString "ID"), some []], [none, some []]⟩
    let lists : Operand := .vocabulary (.list [.text (Text.ofString "'+'"), .text [], .nothing,
        .text (Text.ofString "'-'")])
      (.list [.text (Text.ofString "PLUS"), .text (Text.ofString "ID"), .text []])
      (.list [.nothing, .text []])
    let σ := Session.run .initial
      [⟨.make .copy, [.list [.int 4, .int 0, .int 3, .int 2, .bool true]], some "s"⟩,
       ⟨.send "s" (.mutate .addAll), [.list [.int (-1), .int (-5), .int (-2)]], none⟩,
       ⟨.send "s" (.query .textOfNames), [lists], none⟩]
    names.row [-5, -2, -1, 0, 1, 2, 3, 4] =
        Text.ofString "\x7b-5, <EPSILON>, <EOF>, '+', ID, 2, '-', 4\x7d" ∧
      Query.answer σ .textOfBoth (.runs 2) [.bool true, .vocabulary 1] =
        .ok (.value (.text (names.row [-5, -2, -1, 0, 1, 2, 3, 4]))) := by
  intro names lists σ
  have hs : σ.runs[2]? = some ⟨.plain [⟨-5, -5⟩, ⟨-2, 4⟩], .bool false⟩ := by rfl
  have hnames : σ.NamesBy 1 names := ⟨_, rfl, rfl⟩
  have hns (n : Int) : n ∈ [-5, -2, -1, 0, 1, 2, 3, 4] ↔ Runs.Holds [⟨-5, -5⟩, ⟨-2, 4⟩] n := by
    simp only [Runs.holds_cons, Runs.holds_nil, Interval.mem_def, List.mem_cons, List.not_mem_nil,
      or_false]
    omega
  obtain ⟨-, htext, -⟩ := namedText_eq_row ⟨_, rfl⟩ hs (List.cons_ne_nil _ _) (.refl σ) hnames
    (by decide) hns
  exact ⟨by decide +kernel, htext (.bool true)⟩

end SymbolSets
