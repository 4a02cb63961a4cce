import SymbolSets.Proofs.Store.Names

/-!
# Names sorted out

A single list of names can be taken as a vocabulary. A name in it that starts with a single quote is
the text of a token, one that starts with an uppercase letter is the name of a rule, and every other
one is only displayed. The quote is no uppercase letter, so no name is both. All names stay in the
list for display, so that nothing is lost: the lists for texts and for rules are two parts of it
that share no entry, and what neither of them has is a name of another kind, or none.

## Main definitions

* `Vocabulary.IsQuoted`, `Vocabulary.IsCapitalised`: what a name starts with.
* `Vocabulary.sortedOut`: the three lists that a list of names is sorted out to.
* `Vocabulary.SortsOut`: a vocabulary that tells the names of a list apart and displays them.

## Main results

* `Vocabulary.ofRoles_names`: the roles of the names lead to these three lists.
* `Vocabulary.sortsOut_sortedOut`: what the names of the three lists are.
* `Store.classify?_sortsOut`: a stored list of names is sorted out.
-/

namespace SymbolSets

namespace Vocabulary

/-! ### What a name starts with -/

/-- The name starts with a single quote. -/
def IsQuoted (name : Text) : Prop :=
  name.head? = some quote

/-- The name starts with an uppercase letter. -/
def IsCapitalised (name : Text) : Prop :=
  name.head?.any Unicode.isUppercase = true

instance (name : Text) : Decidable (IsQuoted name) :=
  inferInstanceAs (Decidable (_ = _))

instance (name : Text) : Decidable (IsCapitalised name) :=
  inferInstanceAs (Decidable (_ = _))

theorem isUppercase_quote : Unicode.isUppercase quote = false := by
  decide +kernel

theorem IsQuoted.not_isCapitalised {name : Text} (h : IsQuoted name) : ¬ IsCapitalised name := by
  rw [IsCapitalised, h, Option.any_some, isUppercase_quote]
  exact Bool.false_ne_true

theorem textRole_eq_literal_iff (name : Text) : textRole name = .literal ↔ IsQuoted name := by
  cases name with
  | nil => exact iff_of_false nofun nofun
  | cons c cs =>
    rw [textRole, IsQuoted, List.head?_cons, Option.some_inj]
    split_ifs with hquote hupper <;> simp [hquote]

theorem textRole_eq_symbolic_iff (name : Text) :
    textRole name = .symbolic ↔ IsCapitalised name := by
  cases name with
  | nil => exact iff_of_false nofun nofun
  | cons c cs =>
    rw [textRole, IsCapitalised, List.head?_cons, Option.any_some]
    split_ifs with hquote hupper
    · rw [hquote, isUppercase_quote]
      exact iff_of_false nofun nofun
    · exact iff_of_true rfl hupper
    · exact iff_of_false nofun hupper

/-! ### The lists that names are sorted out to -/

/-- What a name in a list is the name of. A missing one is only displayed, as nothing. -/
def nameRole (name : Option Text) : Role :=
  name.elim .display textRole

/-- The names that start with a quote, those that start with an uppercase letter, and all of them.
Each name stands in its place. -/
def sortedOut (names : List (Option Text)) : Names where
  literal := names.map (Option.filter (IsQuoted ·))
  symbolic := names.map (Option.filter (IsCapitalised ·))
  display := names

/-- The same lists of texts and rules with any list for display. -/
def Names.withDisplay (names : Names) (display : List (Option Text)) : Names :=
  { names with display := display }

/-- **The roles of the names lead to these lists.** -/
theorem ofRoles_names (names : List (Option Text)) :
    ofRoles ((names.map .ofName?).zip (names.map nameRole)) = (sortedOut names).vocabulary := by
  have hliteral (name : Option Text) : entryFor .literal (.ofName? name, nameRole name) =
      .ofName? (name.filter (IsQuoted ·)) := by
    cases name with
    | none => rfl
    | some t =>
      simp only [entryFor, nameRole, Option.elim_some, textRole_eq_literal_iff, Option.filter_some,
        decide_eq_true_eq]
      split_ifs <;> rfl
  have hsymbolic (name : Option Text) : entryFor .symbolic (.ofName? name, nameRole name) =
      .ofName? (name.filter (IsCapitalised ·)) := by
    cases name with
    | none => rfl
    | some t =>
      simp only [entryFor, nameRole, Option.elim_some, textRole_eq_symbolic_iff,
        Option.filter_some, decide_eq_true_eq]
      split_ifs <;> rfl
  rw [List.zip_map', ofRoles, sortedOut, Names.vocabulary]
  simp only [List.map_map, Function.comp_def, hliteral, hsymbolic]

/-! ### The names of the sorted lists -/

variable {names : List (Option Text)} {t : Int}

/-- Two parts of a name that are chosen from one after the other are one part. -/
theorem filter_or_filter {p q : Text → Prop} [DecidablePred p] [DecidablePred q]
    (name : Option Text) :
    (name.filter (p ·)).or (name.filter (q ·)) = name.filter fun t => p t ∨ q t := by
  cases name with
  | none => rfl
  | some t => by_cases hp : p t <;> by_cases hq : q t <;> simp [Option.filter_some, hp, hq]

/-- The names that are shown with the texts and the rules that are sorted out, and with any list for
display. -/
theorem displayName_parts (σ : Store) (names display : List (Option Text)) (t : Int) :
    ((sortedOut names).withDisplay display).vocabulary.displayName σ.isTrue t =
      .text (((given? display t).or
          ((given? names t).filter fun name => IsQuoted name ∨ IsCapitalised name)).getD
        (if t = -1 then Text.ofString "EOF" else Text.ofInt t)) := by
  rw [displayName_names, endOfInput, ← filter_or_filter]
  simp only [sortedOut, Names.withDisplay, given?_map_filter]
  split_ifs with hend
  · have hneg : t < 0 := by omega
    rw [given?_of_lt hneg, given?_of_lt hneg]
    rfl
  · rfl

theorem displayName_sortedOut (σ : Store) (names : List (Option Text)) (t : Int) :
    (sortedOut names).vocabulary.displayName σ.isTrue t =
      .text ((given? names t).getD (if t = -1 then Text.ofString "EOF" else Text.ofInt t)) := by
  refine (displayName_parts σ names names t).trans ?_
  cases given? names t <;> simp

/-- **The vocabulary tells the names of a list apart.** The texts of tokens are the names that start
with a quote, and those of rules the ones that start with an uppercase letter; the end of the input
is a rule of its own. No token type has both. All names are displayed, and without the list for
display, all those are that start in one of the two ways. -/
structure SortsOut (w : Vocabulary) (names : List (Option Text)) : Prop where
  highest : w.highest = names.length - 1
  literalName : ∀ t, w.literalName t = .ofName? ((nameAt? names t).filter (IsQuoted ·))
  symbolicName : ∀ t, w.symbolicName t = .ofName? (if t = -1 then some (Text.ofString "EOF")
    else (nameAt? names t).filter (IsCapitalised ·))
  not_both : ∀ t, w.literalName t = .nothing ∨ w.symbolicName t = .nothing
  displayName : ∀ (σ : Store) t, w.displayName σ.isTrue t =
    .text ((given? names t).getD (if t = -1 then Text.ofString "EOF" else Text.ofInt t))
  rebuilt : ∀ {σ : Store} {a b c : Nat}, σ.listAt a = w.literal → σ.listAt b = w.symbolic →
    σ.listAt c = [] → ∃ place τ,
      σ.vocabulary? (.list a) (.list b) (.list c) = .ok (.vocabulary place, τ) ∧
      ∀ t, (∀ name ∈ given? names t, IsQuoted name ∨ IsCapitalised name) →
        (τ.vocabularyAt place).displayName τ.isTrue t = w.displayName τ.isTrue t

theorem sortsOut_sortedOut (names : List (Option Text)) :
    (sortedOut names).vocabulary.SortsOut names where
  highest := by
    simp only [highest, sortedOut, Names.vocabulary, List.length_map, Nat.max_self]
  literalName t := by
    rw [literalName_names, sortedOut, nameAt?_map_filter]
  symbolicName t := by
    rw [symbolicName_names, sortedOut, nameAt?_map_filter]
    rfl
  not_both t := by
    rw [literalName_names, symbolicName_names, sortedOut, nameAt?_map_filter, nameAt?_map_filter]
    split_ifs with hend
    · left
      rw [hend, nameAt?_of_lt (by decide)]
      rfl
    · cases nameAt? names t with
      | none => exact .inl rfl
      | some name =>
        by_cases hquoted : IsQuoted name
        · right
          rw [Option.filter_some, if_neg (by simpa using hquoted.not_isCapitalised)]
          rfl
        · left
          rw [Option.filter_some, if_neg (by simpa using hquoted)]
          rfl
  displayName σ t := displayName_sortedOut σ names t
  rebuilt {σ a b c} ha hb hc := by
    have hstored : σ.vocabulary? (.list a) (.list b) (.list c) =
        .ok (σ.addVocabulary ((sortedOut names).withDisplay []).vocabulary) :=
      Store.vocabulary?_lists ha hb hc
    refine ⟨_, (σ.addVocabulary _).2, hstored, fun t ht => ?_⟩
    have hall : (given? names t).filter (fun name => IsQuoted name ∨ IsCapitalised name) =
        given? names t := by
      cases hname : given? names t with
      | none => rfl
      | some name => exact Option.filter_some_pos (decide_eq_true (ht name hname))
    rw [(σ.namesBy_addVocabulary _).vocabularyAt_eq, displayName_parts, displayName_sortedOut, hall,
      given?_nil, Option.none_or]

end Vocabulary

/-! ### Lists of names in a store -/

namespace Store

open Vocabulary (nameRole sortedOut)

variable {σ τ : Store} {place : Nat} {names : List (Option Text)}

theorem role?_ofName? (σ : Store) (name : Option Text) :
    σ.role? (.ofName? name) = .ok (nameRole name) := by
  cases name <;> rfl

theorem mapM_role? (σ : Store) (names : List (Option Text)) :
    (names.map .ofName?).mapM σ.role? = .ok (names.map nameRole) := by
  have hroles : σ.role? ∘ Value.ofName? = fun name => .ok (nameRole name) :=
    funext σ.role?_ofName?
  rw [List.mapM_map, hroles]
  exact List.mapM_pure

/-- A list of names that is not empty is stored as a new vocabulary. -/
theorem classify?_of_ne_nil (hlist : σ.listAt place = names.map .ofName?) (hne : names ≠ []) :
    σ.classify? (.list place) = .ok (σ.addVocabulary (sortedOut names).vocabulary) := by
  have htrue : σ.isTrue (.list place) = true := by
    simpa [isTrue, hlist] using hne
  have hstored : ((names.map .ofName?).mapM σ.role? >>= fun roles =>
      pure (σ.addVocabulary (.ofRoles ((names.map .ofName?).zip roles)))) =
        .ok (σ.addVocabulary (.ofRoles ((names.map .ofName?).zip (names.map nameRole)))) := by
    rw [mapM_role?]
    rfl
  rw [classify?, if_pos htrue, listed?, hlist, ← Vocabulary.ofRoles_names]
  exact hstored

/-- **A list of names is sorted out.** A stored list of names, some of which may be missing or
empty, is taken as a vocabulary that tells them apart. The vocabulary is a new one, or the one
without names if the list is empty. -/
theorem classify?_sortsOut (hσ : σ.Reachable) (hext : σ.Extends τ)
    (hlist : τ.listAt place = names.map .ofName?) :
    ∃ built υ, τ.classify? (.list place) = .ok (.vocabulary built, υ) ∧
      (υ.vocabularyAt built).SortsOut names := by
  by_cases hne : names = []
  · subst hne
    have hempty : τ.isTrue (.list place) = false := by
      rw [isTrue, hlist]
      rfl
    refine ⟨emptyVocabularyPlace, τ, ?_, ?_⟩
    · rw [classify?, hempty]
      rfl
    · rw [(hσ.namesBy_empty.extends hext).vocabularyAt_eq]
      exact Vocabulary.sortsOut_sortedOut []
  · refine ⟨_, (τ.addVocabulary _).2, classify?_of_ne_nil hlist hne, ?_⟩
    rw [(τ.namesBy_addVocabulary _).vocabularyAt_eq]
    exact Vocabulary.sortsOut_sortedOut names

/-- A text of a token, the name of a rule, a name that is neither, a missing and an empty one. -/
theorem classify?_sortsOut_five_names :
    let names : Operand := .list [.text (Text.ofString "'+'"), .text (Text.ofString "ID"),
      .text (Text.ofString "ws"), .nothing, .text []]
    let σ := Session.run .initial
      [⟨.send "EMPTY_SET" (.query .textOfNames), [.classified names], none⟩]
    ∃ built υ, σ.classify? (.list 0) = .ok (.vocabulary built, υ) ∧
      (υ.vocabularyAt built).highest = 4 ∧
      (υ.vocabularyAt built).literalName 0 = .text (Text.ofString "'+'") ∧
      (υ.vocabularyAt built).symbolicName 0 = .nothing ∧
      (υ.vocabularyAt built).symbolicName 1 = .text (Text.ofString "ID") ∧
      (υ.vocabularyAt built).symbolicName 2 = .nothing ∧
      (υ.vocabularyAt built).displayName υ.isTrue 2 = .text (Text.ofString "ws") ∧
      (υ.vocabularyAt built).displayName υ.isTrue 4 = .text (Text.ofInt 4) ∧
      (υ.vocabularyAt built).displayName υ.isTrue (-1) = .text (Text.ofString "EOF") := by
  intro names σ
  have hlist : σ.listAt 0 = [some (Text.ofString "'+'"), some (Text.ofString "ID"),
      some (Text.ofString "ws"), none, some []].map .ofName? := by rfl
  obtain ⟨built, υ, hbuilt, hsorts⟩ := classify?_sortsOut ⟨_, rfl⟩ (.refl σ) hlist
  refine ⟨built, υ, hbuilt, hsorts.highest, ?_, ?_, ?_, ?_, ?_, ?_, ?_⟩
  · rw [hsorts.literalName]
    rfl
  · rw [hsorts.symbolicName]
    decide +kernel
  · rw [hsorts.symbolicName]
    decide +kernel
  · rw [hsorts.symbolicName]
    decide +kernel
  · rw [hsorts.displayName]
    rfl
  · rw [hsorts.displayName]
    rfl
  · rw [hsorts.displayName]
    rfl

end Store

end SymbolSets
