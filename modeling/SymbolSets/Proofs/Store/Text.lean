import SymbolSets.Proofs.Runs.Text
import SymbolSets.Proofs.Text.Quoted
import SymbolSets.Store.Text

/-!
# Descriptions of sets

The description of a set shows its text in quotes and whether it is frozen. The text by numbers has
digits, signs, dots, commas, blanks, braces and the letters of two names only, so it is put in
quotes as it is, and ends at the quote behind it.

## Main results

* `SpelledRuns.isPlain_text`, `SpelledRuns.description_eq_quotedText`: the text in quotes.
* `SpelledRuns.description_inj`: a description tells the runs as they are written, and whether the
  set is frozen.
-/

namespace SymbolSets

open Text.Quoted (IsPlain singleQuote)

/-! ### What the text of a set consists of -/

namespace Text

theorem isPlain_of_isDigit {c : CodePoint} (h : IsDigit c) : IsPlain c := by
  obtain ⟨hle, hge⟩ := h
  refine ⟨?_, ?_, ?_⟩
  · simp only [Quoted.isAsciiGraphic, Bool.and_eq_true, decide_eq_true_eq]
    omega
  · rintro rfl
    exact absurd hle (by decide)
  · rintro rfl
    exact absurd hge (by decide)

theorem isPlain_ofInt (v : Int) : ∀ c ∈ ofInt v, IsPlain c := by
  cases v with
  | ofNat n => exact fun c hc => isPlain_of_isDigit (isDigit_of_mem_ofNat c hc)
  | negSucc n =>
    have hminus : IsPlain minus := by decide
    exact List.forall_mem_cons.2
      ⟨hminus, fun c hc => isPlain_of_isDigit (isDigit_of_mem_ofNat c hc)⟩

theorem isPlain_joinComma {ts : List Text} (hts : ∀ t ∈ ts, ∀ c ∈ t, IsPlain c) :
    ∀ c ∈ joinComma ts, IsPlain c := by
  have hcomma : IsPlain comma := by decide
  have hblank : IsPlain blank := by decide
  induction ts with
  | nil => exact List.forall_mem_nil _
  | cons t ts ih =>
    obtain ⟨ht, hts⟩ := List.forall_mem_cons.1 hts
    cases ts with
    | nil => rwa [joinComma_singleton]
    | cons u ts =>
      rw [joinComma_cons_cons, List.forall_mem_append, List.forall_mem_cons, List.forall_mem_cons]
      exact ⟨ht, hcomma, hblank, ih hts⟩

end Text

namespace Runs

theorem isPlain_reservedName {v : Int} {name : Text} (h : reservedName? v = some name) :
    ∀ c ∈ name, IsPlain c := by
  have hall : name.all fun c => IsPlain c := by
    rw [reservedName?] at h
    split_ifs at h
    · obtain rfl := Option.some.inj h
      decide
    · obtain rfl := Option.some.inj h
      decide
  exact fun c hc => of_decide_eq_true (List.all_eq_true.1 hall c hc)

theorem isPlain_boundText (b : Bound) : ∀ c ∈ Style.boundText .numbers b, IsPlain c := by
  cases b with
  | int n => exact Text.isPlain_ofInt n
  | truth b =>
    have hall : (Text.ofBool b).all fun c => IsPlain c := by
      cases b with
      | false => decide +kernel
      | true => decide +kernel
    exact fun c hc => of_decide_eq_true (List.all_eq_true.1 hall c hc)

theorem isPlain_runText (x : Span) : ∀ c ∈ runText .numbers x, IsPlain c := by
  by_cases hx : IsNamed x
  · obtain ⟨name, hname, htext⟩ := exists_runText_of_isNamed .numbers hx
    rw [htext]
    exact isPlain_reservedName hname
  · have hdot : IsPlain dot := by decide
    rw [runText_of_not_isNamed .numbers hx, List.forall_mem_append, rangeTail]
    refine ⟨isPlain_boundText x.lo, ?_⟩
    split_ifs
    · exact List.forall_mem_nil _
    · rw [List.forall_mem_cons, List.forall_mem_cons]
      exact ⟨hdot, hdot, isPlain_boundText x.hi⟩

end Runs

namespace SpelledRuns

open Runs (row openingBrace closingBrace FollowsSet isPlain_runText)

variable {xs ys : SpelledRuns}

/-- The text of a set by numbers holds nothing that has to be escaped. -/
theorem isPlain_text (xs : SpelledRuns) : ∀ c ∈ xs.text .numbers, IsPlain c := by
  have hrow : ∀ c ∈ row .numbers xs.spans, IsPlain c := by
    refine Text.isPlain_joinComma fun t ht => ?_
    obtain ⟨x, -, rfl⟩ := List.mem_map.1 ht
    exact isPlain_runText x
  have hopening : IsPlain openingBrace := by decide
  have hclosing : IsPlain closingBrace := by decide
  rw [text_eq]
  split_ifs
  · rw [List.forall_mem_cons, List.forall_mem_append, List.forall_mem_singleton]
    exact ⟨hopening, hrow, hclosing⟩
  · exact hrow

/-- **The description shows the text as a quoted one.** -/
theorem description_eq_quotedText (xs : SpelledRuns) (frozen : Bool) :
    xs.description frozen = Kind.runs.name ++ Text.ofString "(" ++
      Value.quotedText (xs.text .numbers) ++
        Text.ofString (if frozen then ", readonly=True)" else ")") := by
  have hquoted : Value.quotedText (xs.text .numbers) =
      singleQuote :: xs.text .numbers ++ [singleQuote] :=
    Text.Quoted.encode_of_isPlain (isPlain_text xs) fun c hc =>
      Text.Quoted.isPrintable_of_isAsciiGraphic (isPlain_text xs c hc).1
  have hopening : Text.ofString "('" = Text.ofString "(" ++ [singleQuote] := by decide
  have hclosing : Text.ofString "'" = [singleQuote] := by decide
  rw [hquoted, description, hopening, hclosing]
  simp only [List.append_assoc, List.cons_append, List.nil_append]

/-- **A description tells the runs as they are written and whether the set is frozen.** -/
theorem description_inj {frozen frozen' : Bool} :
    xs.description frozen = ys.description frozen' ↔ xs.spans = ys.spans ∧ frozen = frozen' := by
  refine ⟨fun heq => ?_, fun ⟨hsame, hfrozen⟩ => by
    rw [description, description, text_numbers_inj.2 hsame, hfrozen]⟩
  have hquote (t : Text) : Text.OpensWith FollowsSet (Text.ofString "'" ++ t) :=
    Text.opensWith_cons.2 ⟨⟨by decide, by decide⟩, by decide⟩
  simp only [description, List.append_assoc, List.append_cancel_left_eq] at heq
  obtain ⟨hsame, htail⟩ := tells_text .numbers (hquote _) (hquote _) heq
  have hends : Text.ofString ", readonly=True)" ≠ Text.ofString ")" := by decide +kernel
  have hfrozen := List.append_cancel_left htail
  refine ⟨Runs.Style.keepsBounds_numbers_injective.list_map hsame, ?_⟩
  cases frozen with
  | false =>
    cases frozen' with
    | false => rfl
    | true => exact absurd hfrozen.symm hends
  | true =>
    cases frozen' with
    | false => exact absurd hfrozen hends
    | true => rfl

end SpelledRuns

end SymbolSets
