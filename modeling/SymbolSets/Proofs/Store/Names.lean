import SymbolSets.Proofs.Session.Frame

/-!
# Vocabularies of texts

The names in a vocabulary are texts, and some of them may be missing or empty. Then nothing in a
store decides which name is shown: it is the first of up to three texts that is not empty, or a
numeral if there is none. The lists may have any lengths. Each of them is asked on its own, so a
token type may lie behind the end of one list and within another, and one below `0` lies in none.

A vocabulary keeps its names for good, since a step can at most mark it.

## Main definitions

* `Value.ofName?`: a name that may be missing, as a value.
* `Vocabulary.nameAt?`, `Vocabulary.given?`: the name of a token type in a list, and the one that is
  not empty.
* `Vocabulary.Names`: three lists of names.
* `Store.NamesBy`: a stored vocabulary of three such lists.

## Main results

* `Vocabulary.displayName_names`: the name that is shown.
* `Store.vocabulary?_lists`: lists are stored as a vocabulary.
* `Store.NamesBy.run`: the names of a vocabulary stay what they are.
-/

namespace SymbolSets

/-- A name, which may be missing. -/
def Value.ofName? : Option Text → Value
  | none => .nothing
  | some t => .text t

namespace Vocabulary

/-! ### Names in lists -/

/-- The name of a token type in a list, if the list has that many entries. -/
def nameAt? (names : List (Option Text)) (symbol : Int) : Option Text :=
  if h : 0 ≤ symbol ∧ symbol < names.length then names[symbol.toNat] else none

/-- The name of a token type in a list, unless it is empty. -/
def given? (names : List (Option Text)) (symbol : Int) : Option Text :=
  (nameAt? names symbol).filter fun t => t ≠ []

section

variable {names : List (Option Text)} {t : Int}

theorem nameAt?_of_lt (h : t < 0) : nameAt? names t = none :=
  dif_neg fun ht => Int.not_lt.2 ht.1 h

theorem given?_of_lt (h : t < 0) : given? names t = none := by
  rw [given?, nameAt?_of_lt h, Option.filter_none]

theorem given?_of_length_le (h : names.length ≤ t) : given? names t = none := by
  have hname : nameAt? names t = none := dif_neg fun ht => Int.not_lt.2 h ht.2
  rw [given?, hname, Option.filter_none]

theorem given?_nil (t : Int) : given? [] t = none := by
  rcases Int.lt_or_le t 0 with h | h
  · exact given?_of_lt h
  · exact given?_of_length_le h

/-- Names that are left out of a list are missing in it. -/
theorem nameAt?_map_filter (p : Text → Bool) :
    nameAt? (names.map (Option.filter p)) t = (nameAt? names t).filter p := by
  simp only [nameAt?, List.length_map, List.getElem_map]
  split_ifs <;> rfl

/-- A list is asked for the name of a token type. -/
theorem listed_ofName? (names : List (Option Text)) (t : Int) :
    listed (names.map .ofName?) t = .ofName? (nameAt? names t) := by
  rw [listed, nameAt?]
  split_ifs with hneg hrange hrange
  · omega
  · rfl
  · have hlt : t.toNat < names.length := by omega
    rw [List.getElem?_map, List.getElem?_eq_getElem hlt]
    rfl
  · have hle : names.length ≤ t.toNat := by omega
    rw [List.getElem?_map, List.getElem?_eq_none hle]
    rfl

/-- Names that are left out of a list are not given by it. -/
theorem given?_map_filter (p : Text → Bool) :
    given? (names.map (Option.filter p)) t = (given? names t).filter p := by
  rw [given?, given?, nameAt?_map_filter, Option.filter_filter, Option.filter_filter]
  simp only [Bool.and_comm]

theorem given?_ne_nil {name : Text} (h : given? names t = some name) : name ≠ [] := by
  simpa using (Option.filter_eq_some_iff.1 h).2

end

/-- A name in front of other values is chosen before them if it is neither missing nor empty. -/
theorem getD_find?_isTrue_cons {σ : Store} {vs : List Value} {rest : Option Text} {otherwise : Text}
    (h : (vs.find? σ.isTrue).getD (.text otherwise) = .text (rest.getD otherwise))
    (name : Option Text) :
    ((.ofName? name :: vs).find? σ.isTrue).getD (.text otherwise) =
      .text (((name.filter fun t => t ≠ []).or rest).getD otherwise) := by
  cases name with
  | none => exact h
  | some t =>
    cases t with
    | nil => exact h
    | cons c cs => rfl

/-! ### Three lists of names -/

/-- Three lists of names, of any lengths. -/
structure Names where
  literal : List (Option Text)
  symbolic : List (Option Text)
  display : List (Option Text)

/-- The vocabulary of three lists of names. -/
def Names.vocabulary (names : Names) : Vocabulary :=
  ⟨names.literal.map .ofName?, names.symbolic.map .ofName?, names.display.map .ofName?⟩

variable {names : Names} {t : Int}

theorem literalName_names (names : Names) (t : Int) :
    names.vocabulary.literalName t = .ofName? (nameAt? names.literal t) :=
  listed_ofName? names.literal t

theorem symbolicName_names (names : Names) (t : Int) :
    names.vocabulary.symbolicName t =
      .ofName? (if t = endOfInput then some endName else nameAt? names.symbolic t) := by
  rw [symbolicName]
  split_ifs with hend
  · rfl
  · exact listed_ofName? names.symbolic t

/-- **The name that is shown** is the first one that is neither missing nor empty. -/
theorem displayName_names (σ : Store) (names : Names) (t : Int) :
    names.vocabulary.displayName σ.isTrue t =
      .text (((given? names.display t).or ((given? names.literal t).or
        (if t = endOfInput then some endName else given? names.symbolic t))).getD
          (Text.ofInt t)) := by
  have hdisplay : listed names.vocabulary.display t = .ofName? (nameAt? names.display t) :=
    listed_ofName? names.display t
  have hsymbolic : (if t = endOfInput then some endName else nameAt? names.symbolic t).filter
        (fun t => t ≠ []) =
      if t = endOfInput then some endName else given? names.symbolic t := by
    split_ifs <;> rfl
  rw [displayName, hdisplay, literalName_names, symbolicName_names, ← hsymbolic]
  have hnone : (([] : List Value).find? σ.isTrue).getD (.text (Text.ofInt t)) =
      .text ((none : Option Text).getD (Text.ofInt t)) := rfl
  have hall := getD_find?_isTrue_cons (getD_find?_isTrue_cons (getD_find?_isTrue_cons hnone
    (if t = endOfInput then some endName else nameAt? names.symbolic t))
    (nameAt? names.literal t)) (nameAt? names.display t)
  rwa [Option.or_none] at hall

/-- A token type above the highest one lies behind the ends of all lists. -/
theorem length_le_of_highest_lt (h : names.vocabulary.highest < t) :
    names.display.length ≤ t ∧ names.literal.length ≤ t ∧ names.symbolic.length ≤ t := by
  simp only [highest, Names.vocabulary, List.length_map] at h
  omega

end Vocabulary

namespace Store

open Vocabulary (Names)

variable {σ τ : Store} {place : Nat} {names : Names}

/-! ### Stored vocabularies -/

/-- **Three lists of names are stored as a vocabulary.** -/
theorem vocabulary?_lists {a b c : Nat} (ha : σ.listAt a = names.literal.map .ofName?)
    (hb : σ.listAt b = names.symbolic.map .ofName?)
    (hc : σ.listAt c = names.display.map .ofName?) :
    σ.vocabulary? (.list a) (.list b) (.list c) = .ok (σ.addVocabulary names.vocabulary) := by
  simp only [vocabulary?, listed?, ha, hb, hc]
  rfl

/-- The vocabulary at `place` has three lists of names, which are `names`. -/
def NamesBy (σ : Store) (place : Nat) (names : Names) : Prop :=
  ∃ o, σ.vocabularies[place]? = some o ∧ o.vocabulary = names.vocabulary

theorem NamesBy.vocabularyAt_eq (h : σ.NamesBy place names) :
    σ.vocabularyAt place = names.vocabulary := by
  obtain ⟨o, ho, hnames⟩ := h
  rw [vocabularyAt, ho, ← hnames]
  rfl

theorem NamesBy.extends (h : σ.NamesBy place names) (hext : σ.Extends τ) :
    τ.NamesBy place names := by
  obtain ⟨o, ho, hnames⟩ := h
  exact ⟨o, hext.vocabularies ho, hnames⟩

theorem namesBy_addVocabulary (σ : Store) (names : Names) :
    (σ.addVocabulary names.vocabulary).2.NamesBy σ.vocabularies.size names :=
  ⟨_, Array.getElem?_push_size, rfl⟩

/-- The only thing that is done to a vocabulary is that it is marked. -/
theorem NamesBy.outcome {vs : List Value} {action : Action} {report : Report}
    (h : σ.NamesBy place names) (hact : action.Outcome σ vs τ report) : τ.NamesBy place names := by
  cases hact with
  | refused => exact h
  | make hc => exact h.extends (σ.extends_enter _)
  | derive hv hp => exact h.extends (σ.extends_enter _)
  | answer hv hp => exact h.extends (σ.extends_enter _)
  | changeRuns hv ho => exact h
  | changeElements hv ho => exact h
  | changeList hv => exact h
  | markVocabulary hv hvs =>
    obtain ⟨o, ho, hnames⟩ := h
    rw [NamesBy, markVocabulary, Array.getElem?_modify, ho]
    split_ifs
    · exact ⟨_, rfl, hnames⟩
    · exact ⟨o, rfl, hnames⟩

/-- What one step preserves. -/
theorem NamesBy.step (h : σ.NamesBy place names) (s : Step) : (s.run σ).1.NamesBy place names := by
  rcases s.run_cases σ with ⟨fault, -, hrun⟩ | ⟨vs, τ, υ, report, hvs, hact, hrun⟩
  · rwa [hrun]
  · have hframe : Frame (fun _ => False) υ (υ.bindResult s.into report.result) :=
      υ.frame_bindResult s.into report.result
    obtain ⟨o, ho, hnames⟩ := (h.extends (Operand.extends_of_values? hvs)).outcome hact
    rw [hrun]
    exact ⟨o, hframe.vocabularies not_false ho, hnames⟩

/-- **The names of a vocabulary stay what they are.** -/
theorem NamesBy.run (h : σ.NamesBy place names) (steps : List Step) :
    (Session.run σ steps).NamesBy place names :=
  Session.run_induction (P := (NamesBy · place names)) (fun _ s hσ => hσ.step s) h steps

/-- The vocabulary without names is the same one after every session. -/
theorem Reachable.namesBy_empty (h : σ.Reachable) :
    σ.NamesBy emptyVocabularyPlace ⟨[], [], []⟩ := by
  obtain ⟨steps, rfl⟩ := h
  exact NamesBy.run ⟨_, rfl, rfl⟩ steps

end Store

end SymbolSets
