import SymbolSets.Proofs.Session.Outcome

/-!
# How new sets come about

Requests for a new set are many, and so are the ways in which their operands are read. Still a new
set comes of stored sets, of intervals and of values by a few operations, and nothing else enters
it. What these operations keep is true of every new set.

## Main definitions

* `Contents.Made`: the sets that come of the stored ones, of intervals and of values.
* `Product.Made`: a product that is such a set, if it is a new set at all.

## Main results

* `Maker.made_of_make`, `Derivation.made_of_derive`: every new set is made in this way.
* `Query.answer_ne_contents`: no question is answered by a new set.
-/

namespace SymbolSets

/-- The sets that come of the stored ones, of intervals and of values. -/
inductive Contents.Made (σ : Store) : Contents → Prop
  | stored {v c} (h : σ.contents? v = some c) : Made σ c
  | ofSpans (xs : List Span) : Made σ (.runs (.ofSpans xs))
  | insertAll {xs : SpelledRuns} (hxs : Made σ (.runs xs)) (added : List Span) :
      Made σ (.runs (xs.insertAll added))
  | inter {xs ys : SpelledRuns} (hxs : Made σ (.runs xs)) (hys : Made σ (.runs ys)) :
      Made σ (.runs (xs.inter ys))
  | diff {xs ys : SpelledRuns} (hxs : Made σ (.runs xs)) (hys : Made σ (.runs ys)) :
      Made σ (.runs (xs.diff ys))
  | ofList (vs : List Value) :
      Made σ (.enumerated (Enumerated.ofList σ.runsAt (vs.map σ.element)))
  | applyElements (op : Operator) {es fs : Enumerated} (hes : Made σ (.enumerated es))
      (hfs : Made σ (.enumerated fs)) : Made σ (.enumerated (Enumerated.apply σ.runsAt op es fs))

/-- If the product is a new set, it comes of stored sets, of intervals and of values. -/
def Product.Made (σ : Store) : Product → Prop
  | .contents c => c.Made σ
  | .value _ | .items _ => True

section Folds

variable {ε α β : Type} {P : β → Prop} {f : β → α → Except ε β}

/-- What a step that succeeds keeps is kept by a fold of such steps. -/
theorem foldlM_ok_induction (hf : ∀ {b a b'}, P b → f b a = .ok b' → P b') {b b' : β}
    (hb : P b) {as : List α} (h : as.foldlM f b = .ok b') : P b' := by
  induction as generalizing b with
  | nil =>
    cases h
    exact hb
  | cons a as ih =>
    rw [List.foldlM_cons] at h
    obtain ⟨c, hc, h⟩ := bind_eq_ok_iff.1 h
    exact ih (hf hb hc) h

end Folds

variable {σ : Store} {c d : Contents} {operands : List Value}

namespace Contents

/-! ### Collections -/

theorem made_empty : Made σ (.runs .empty) :=
  .ofSpans []

/-- A collection that is taken as a set kept by runs. -/
theorem made_of_runs? {v : Value} {xs : SpelledRuns} (h : σ.runs? v = .ok xs) :
    Made σ (.runs xs) := by
  rw [Store.runs?.eq_def] at h
  split at h
  · cases h
    exact .stored (v := .runs _) rfl
  · obtain ⟨added, -, rfl⟩ := map_eq_ok_iff.1 h
    exact .ofSpans added

/-- A collection that is taken as elements. -/
theorem made_of_elements? {v : Value} {es : List Element} (h : σ.elements? v = .ok es) :
    Made σ (.enumerated (Enumerated.ofList σ.runsAt es)) := by
  obtain ⟨vs, -, rfl⟩ := Store.exists_of_elements? h
  exact .ofList vs

/-! ### Operations -/

theorem made_of_combine {op : Operator} {v : Value} (hc : Made σ c)
    (h : c.combine σ op v = .ok d) : Made σ d := by
  rw [combine.eq_def] at h
  split at h
  · obtain ⟨added, -, rfl⟩ := map_eq_ok_iff.1 h
    exact hc.insertAll added
  · obtain ⟨ys, hys, rfl⟩ := map_eq_ok_iff.1 h
    exact hc.inter (made_of_runs? hys)
  · obtain ⟨ys, hys, rfl⟩ := map_eq_ok_iff.1 h
    exact hc.diff (made_of_runs? hys)
  · obtain ⟨es, hes, rfl⟩ := map_eq_ok_iff.1 h
    obtain ⟨fs, hfs, rfl⟩ := map_eq_ok_iff.1 hes
    obtain ⟨gs, hgs, rfl⟩ := map_eq_ok_iff.1 hfs
    exact hc.applyElements op (made_of_elements? hgs)

theorem made_of_operate {op : Operator} {v : Value} (hc : Made σ c)
    (h : c.operate σ op v = .ok d) : Made σ d := by
  rw [operate, IntSet.operate] at h
  split at h
  · cases h
  · exact made_of_combine hc h

theorem made_of_universe? {xs : SpelledRuns} (h : universe? σ operands = .ok xs) :
    Made σ (.runs xs) := by
  have hcharacters : Made σ (.runs (σ.spelledAt Store.characterPlace)) :=
    .stored (v := .runs _) rfl
  rw [universe?.eq_def] at h
  split at h
  · cases h
    exact hcharacters
  · cases h
    exact hcharacters
  · cases h
    exact hcharacters
  · split at h
    · cases h
    · exact made_of_runs? h
  · split at h
    · cases h
    · exact made_of_runs? h
  · split at h
    · obtain ⟨x, -, rfl⟩ := map_eq_ok_iff.1 h
      exact .ofSpans [x]
    · exact made_of_runs? h
  · cases h

theorem made_of_complement (hc : Made σ c) (h : c.complement σ operands = .ok d) : Made σ d := by
  rw [complement.eq_def] at h
  split at h
  · obtain ⟨all, hall, rfl⟩ := map_eq_ok_iff.1 h
    exact (made_of_universe? hall).diff hc
  · split at h
    · obtain ⟨fs, hfs, rfl⟩ := map_eq_ok_iff.1 h
      obtain ⟨vs, -, rfl⟩ := Store.exists_of_elements? hfs
      rw [Enumerated.diff, List.filter_map]
      exact .ofList _
    · cases h

end Contents

/-! ### Requests -/

/-- **What is derived is made in this way,** if it is a new set. -/
theorem Derivation.made_of_derive {d : Derivation} {v : Value} {p : Product}
    (h : d.derive σ v operands = .ok p) : p.Made σ := by
  rw [derive.eq_def] at h
  split at h
  · obtain ⟨c, hc, rfl⟩ := map_eq_ok_iff.1 h
    have hreceiver := Contents.Made.stored ‹_›
    rw [ofContents.eq_def] at hc
    split at hc
    · exact Contents.made_of_combine hreceiver hc
    · exact Contents.made_of_combine hreceiver hc
    · exact Contents.made_of_combine hreceiver hc
    · exact Contents.made_of_complement hreceiver hc
    · exact Contents.made_of_operate hreceiver hc
    · cases hc
  · obtain ⟨w, -, rfl⟩ := map_eq_ok_iff.1 h
    trivial

namespace Maker

theorem made_of_difference? {left right : Value} (h : difference? σ left right = .ok c) :
    c.Made σ := by
  rw [difference?.eq_def] at h
  split at h
  · split at h
    · cases h
      exact Contents.made_empty
    · obtain ⟨xs, hxs, h⟩ := bind_eq_ok_iff.1 h
      rw [differenceFrom?.eq_def] at h
      split at h
      · cases h
        exact (Contents.made_of_runs? hxs).diff (.stored ‹_›)
      · cases h
        exact Contents.made_of_runs? hxs
      · cases h
  · cases h

theorem made_of_fold? {f : Fold} {first : Value} {rest : List Value}
    (h : fold? σ f first rest = .ok c) : c.Made σ := by
  rw [fold?.eq_def] at h
  split at h
  · obtain ⟨copy, hcopy, h⟩ := bind_eq_ok_iff.1 h
    exact foldlM_ok_induction Contents.made_of_operate
      (Contents.made_of_combine (.stored ‹_›) hcopy) h
  · cases h

/-- **What is made of values is made in this way.** -/
theorem made_of_make {m : Maker} (h : m.make σ operands = .ok c) : c.Made σ := by
  rw [make.eq_def] at h
  split at h
  · cases h
    exact Contents.made_empty
  · obtain ⟨xs, hxs, rfl⟩ := map_eq_ok_iff.1 h
    exact Contents.made_of_runs? hxs
  · obtain ⟨x, -, rfl⟩ := map_eq_ok_iff.1 h
    exact .ofSpans [x]
  · obtain ⟨x, -, rfl⟩ := map_eq_ok_iff.1 h
    exact .ofSpans [x]
  · obtain ⟨x, -, rfl⟩ := map_eq_ok_iff.1 h
    exact .ofSpans [x]
  · obtain ⟨xs, -, rfl⟩ := map_eq_ok_iff.1 h
    exact .ofSpans xs
  · exact foldlM_ok_induction Contents.made_of_combine Contents.made_empty h
  · cases h
    have hnil : Enumerated.ofList σ.runsAt [] = [] := by
      simp [Enumerated.ofList, Enumerated.isAscending]
    have hempty := Contents.Made.ofList (σ := σ) []
    rwa [List.map_nil, hnil] at hempty
  · obtain ⟨es, hes, rfl⟩ := map_eq_ok_iff.1 h
    exact Contents.made_of_elements? hes
  · cases h
  · exact made_of_fold? h
  · exact made_of_difference? h
  · cases h

end Maker

namespace Query

theorem answerRuns_ne_contents {q : Query} {mark : Value} {xs : SpelledRuns} :
    q.answerRuns σ mark xs operands ≠ .ok (.contents c) := by
  rw [answerRuns.eq_def]
  split <;> simp only [ne_eq, map_eq_ok_iff, elim_eq_ok_iff, ite_eq_ok_iff, listed, Except.ok.injEq,
    reduceCtorEq, and_false, exists_false, not_false_eq_true]

theorem answerElements_ne_contents {q : Query} {mark : Option Value} {es : Enumerated} :
    q.answerElements σ mark es operands ≠ .ok (.contents c) := by
  rw [answerElements.eq_def]
  split <;> simp only [ne_eq, map_eq_ok_iff, elim_eq_ok_iff, ite_eq_ok_iff, givenMark?,
    Except.ok.injEq, reduceCtorEq, and_false, exists_false, not_false_eq_true]

theorem answerObject_ne_contents {q : Query} {subject : Value} :
    q.answerObject σ subject operands ≠ .ok (.contents c) := by
  rw [answerObject.eq_def]
  split
  · split
    · exact answerRuns_ne_contents
    · nofun
  · split
    · exact answerElements_ne_contents
    · nofun
  · split
    · simp [givenMark?, elim_eq_ok_iff]
    · nofun
  · nofun

/-- No question is answered by a new set. -/
theorem answer_ne_contents {q : Query} {subject : Value} :
    q.answer σ subject operands ≠ .ok (.contents c) := by
  rw [answer.eq_def]
  split <;> simp only [ne_eq, map_eq_ok_iff, answerObject_ne_contents, Except.ok.injEq,
    reduceCtorEq, and_false, exists_false, not_false_eq_true]

theorem made_of_answer {q : Query} {subject : Value} {p : Product}
    (h : q.answer σ subject operands = .ok p) : p.Made σ := by
  cases p with
  | value v => trivial
  | items vs => trivial
  | contents c => exact absurd h answer_ne_contents

end Query

end SymbolSets
