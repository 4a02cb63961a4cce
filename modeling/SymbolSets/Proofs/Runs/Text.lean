import Mathlib.Tactic.SplitIfs
import SymbolSets.Proofs.Text.Reading
import SymbolSets.Runs.Text
import SymbolSets.Text.Quoted

/-!
# Texts of sets

Nothing is escaped in the text of a set, and a set may hold the quote, the comma, the dot, the
braces and the digits, which its text has a use for as well. Still it can be read back from left to
right. A bound starts with a quote and ends with the second code point after it, or it is a numeral,
which ends with its digits, or one of the words for truth values. Then two dots follow, or a comma,
or the end. The names of the reserved token types and the braces start with code points that no
bound starts with.

Numbers tell a bound as it is written, and characters tell the integer that it is.

## Main definitions

* `Runs.Style.keeps`, `Runs.Style.keepsBounds`: what can be read back of a bound and of a run.
* `Runs.IsNamed`: the runs that are written as a name.
* `Runs.StartsBound`, `Runs.StartsItem`: the code points that the texts of bounds and of runs start
  with.
* `Runs.FollowsRun`, `Runs.FollowsSet`: the code points that may follow a run or a set.

## Main results

* `Runs.tells_runText`: the text of a run can be read back.
* `SpelledRuns.tells_text`: the text of a set can be read back.
* `SpelledRuns.text_numbers_inj`, `SpelledRuns.text_characters_inj`: when sets have the same text.
-/

namespace SymbolSets

open Text (IsDigit OpensWith Tells Delimits minus comma)
open Text.Quoted (singleQuote)

/-! ### Truth values -/

/-- The code points that the words for truth values start with. -/
def StartsWord (c : CodePoint) : Prop :=
  c = CodePoint.ofChar 'T' ∨ c = CodePoint.ofChar 'F'

instance (c : CodePoint) : Decidable (StartsWord c) :=
  inferInstanceAs (Decidable (_ ∨ _))

theorem startsWith_ofBool (b : Bool) : (Text.ofBool b).StartsWith StartsWord := by
  cases b with
  | false => exact Text.startsWith_cons.2 (.inr rfl)
  | true => exact Text.startsWith_cons.2 (.inl rfl)

/-- Neither of the two words starts the other. -/
theorem ofBool_append_inj {b c : Bool} {r s : Text}
    (heq : Text.ofBool b ++ r = Text.ofBool c ++ s) : b = c ∧ r = s := by
  have hne : CodePoint.ofChar 'T' ≠ CodePoint.ofChar 'F' := by decide
  cases b with
  | false =>
    cases c with
    | false => exact ⟨rfl, List.append_cancel_left heq⟩
    | true => exact absurd (List.cons.inj heq).1 hne.symm
  | true =>
    cases c with
    | false => exact absurd (List.cons.inj heq).1 hne
    | true => exact ⟨rfl, List.append_cancel_left heq⟩

/-- **A bound as it is written can be read back if no digit follows.** -/
theorem Bound.delimits_text : Delimits text fun c => ¬ IsDigit c := by
  intro a b r s hr hs heq
  have hne {n : Int} {b : Bool} {r s : Text} : Text.ofInt n ++ r ≠ Text.ofBool b ++ s := by
    refine ((Text.startsWith_ofInt n).append r).ne ((startsWith_ofBool b).append s)
      fun c hc hw => ?_
    rcases hw with rfl | rfl
    · exact absurd hc (by decide)
    · exact absurd hc (by decide)
  cases a with
  | int m =>
    cases b with
    | int n =>
      obtain ⟨hsame, hrest⟩ := Text.delimits_ofInt hr hs heq
      exact ⟨congrArg Bound.int hsame, hrest⟩
    | truth c => exact absurd heq hne
  | truth a =>
    cases b with
    | int n => exact absurd heq.symm hne
    | truth c =>
      obtain ⟨hsame, hrest⟩ := ofBool_append_inj heq
      exact ⟨congrArg Bound.truth hsame, hrest⟩

namespace Runs

variable {style : Style} {v w : Int} {x y : Span} {xs ys : List Span} {r s t : Text}

/-! ### Bounds -/

theorem eq_of_ofInt?_eq_some {c : CodePoint} (h : CodePoint.ofInt? v = some c) : v = c.val := by
  rw [CodePoint.ofInt?] at h
  split_ifs at h with hv
  obtain rfl := Option.some.inj h
  simp only
  omega

/-- A bound is written as a character in quotes or as a numeral. -/
theorem characterText_cases (v : Int) :
    (∃ c : CodePoint, v = c.val ∧ characterText v = [singleQuote, c, singleQuote]) ∨
      characterText v = Text.ofInt v := by
  cases h : CodePoint.ofInt? v with
  | none => exact .inr (by rw [characterText, h])
  | some c => exact .inl ⟨c, eq_of_ofInt?_eq_some h, by rw [characterText, h]; rfl⟩

/-- **A bound can be read back if no digit follows.** -/
theorem delimits_characterText : Delimits characterText fun c => ¬ IsDigit c := by
  intro v w r s hr hs heq
  have hquote : ¬ (IsDigit singleQuote ∨ singleQuote = minus) := by decide
  rcases characterText_cases v with ⟨c, hv, htext⟩ | htext
  · rcases characterText_cases w with ⟨d, hw, htext'⟩ | htext'
    · rw [htext, htext'] at heq
      simp only [List.cons_append, List.nil_append, List.cons.injEq, true_and] at heq
      obtain ⟨rfl, rfl⟩ := heq
      exact ⟨hv.trans hw.symm, rfl⟩
    · rw [htext, htext'] at heq
      exact absurd heq.symm (((Text.startsWith_ofInt w).append s).ne_cons hquote _)
  · rcases characterText_cases w with ⟨d, hw, htext'⟩ | htext'
    · rw [htext, htext'] at heq
      exact absurd heq (((Text.startsWith_ofInt v).append r).ne_cons hquote _)
    · rw [htext, htext'] at heq
      exact Text.delimits_ofInt hr hs heq

/-- What can be read back of a bound. Characters tell the integer alone. -/
def Style.keeps : Style → Bound → Bound
  | .numbers, b => b
  | .characters, b => .int b.toInt

@[simp] theorem Style.toInt_keeps (style : Style) (b : Bound) :
    (style.keeps b).toInt = b.toInt := by
  cases style with
  | _ => rfl

theorem tells_boundText (style : Style) :
    Tells style.keeps style.boundText fun c => ¬ IsDigit c := by
  cases style with
  | numbers => exact Bound.delimits_text
  | characters =>
    intro a b r s hr hs heq
    obtain ⟨hsame, hrest⟩ := delimits_characterText hr hs heq
    exact ⟨congrArg Bound.int hsame, hrest⟩

/-- The code point starts a bound: a numeral, a word or a character in quotes. -/
def StartsBound (c : CodePoint) : Prop :=
  (IsDigit c ∨ c = minus) ∨ StartsWord c ∨ c = singleQuote

instance (c : CodePoint) : Decidable (StartsBound c) :=
  inferInstanceAs (Decidable (_ ∨ _))

theorem startsWith_boundText (style : Style) (b : Bound) :
    (style.boundText b).StartsWith StartsBound := by
  have hnumeral (v : Int) : (Text.ofInt v).StartsWith StartsBound :=
    (Text.startsWith_ofInt v).mono fun _ => .inl
  cases style with
  | numbers =>
    cases b with
    | int n => exact hnumeral n
    | truth b => exact (startsWith_ofBool b).mono fun _ hc => .inr (.inl hc)
  | characters =>
    rw [Style.boundText]
    rcases characterText_cases b.toInt with ⟨c, -, htext⟩ | htext
    · rw [htext]
      exact Text.startsWith_cons.2 (by decide)
    · rw [htext]
      exact hnumeral b.toInt

/-! ### Runs -/

/-- What the text of a run that has a name starts with. -/
def openingAngle : CodePoint :=
  CodePoint.ofChar '<'

/-- What stands between the bounds of a range, twice. -/
def dot : CodePoint :=
  CodePoint.ofChar '.'

/-- The code point starts the text of a run: a bound or a name. -/
def StartsItem (c : CodePoint) : Prop :=
  StartsBound c ∨ c = openingAngle

instance (c : CodePoint) : Decidable (StartsItem c) :=
  inferInstanceAs (Decidable (_ ∨ _))

theorem exists_reservedName_eq_cons (h : reservedName? v = some t) :
    ∃ u, t = openingAngle :: u := by
  rw [reservedName?] at h
  split_ifs at h
  · exact ⟨_, (Option.some.inj h).symm⟩
  · exact ⟨_, (Option.some.inj h).symm⟩

/-- The names of the reserved token types can be read back. -/
theorem reservedName_append_inj {u : Text} (hv : reservedName? v = some t)
    (hw : reservedName? w = some u) (heq : t ++ r = u ++ s) : v = w ∧ r = s := by
  have hne : CodePoint.ofChar 'O' ≠ CodePoint.ofChar 'P' := by decide
  rw [reservedName?] at hv hw
  split_ifs at hv hw with hvEnd hwEnd hwEpsilon hvEpsilon hwEnd hwEpsilon
  all_goals
    obtain rfl := Option.some.inj hv
    obtain rfl := Option.some.inj hw
    simp only [Text.ofChars, List.map_cons, List.map_nil, List.cons_append, List.nil_append,
      List.cons.injEq, true_and] at heq
  · exact ⟨hvEnd.trans hwEnd.symm, heq⟩
  · exact absurd heq.1 hne
  · exact absurd heq.1.symm hne
  · exact ⟨hvEpsilon.trans hwEpsilon.symm, heq⟩

/-- The run is a reserved token type. -/
def IsNamed (x : Span) : Prop :=
  x.lo.toInt = x.hi.toInt ∧ (reservedName? x.lo.toInt).isSome

instance (x : Span) : Decidable (IsNamed x) :=
  inferInstanceAs (Decidable (_ ∧ _))

/-- What can be read back of a run. -/
def Style.keepsBounds (style : Style) (x : Span) : Bound × Bound :=
  (style.keeps x.lo, style.keeps x.hi)

/-- A run of one integer has plain bounds, so the one that is shown tells both. -/
theorem Style.keepsBounds_of_eq (style : Style) (h : x.lo.toInt = x.hi.toInt) :
    style.keepsBounds x = (.int x.lo.toInt, .int x.lo.toInt) := by
  have hkeeps (n : Int) : style.keeps (.int n) = .int n := by
    cases style with
    | _ => rfl
  obtain ⟨hlo, hhi⟩ := x.plain_of_eq h
  rw [keepsBounds, hlo, hhi, hkeeps, hkeeps, ← h]
  rfl

/-- Numbers keep runs as they are written. -/
theorem Style.keepsBounds_numbers_injective : Function.Injective (keepsBounds .numbers) := by
  rintro ⟨a, b, _⟩ ⟨c, d, _⟩ h
  obtain ⟨rfl, rfl⟩ := Prod.mk.inj h
  rfl

/-- What follows the first bound of a run that is written by its bounds. -/
def rangeTail (style : Style) (x : Span) : Text :=
  if x.lo.toInt = x.hi.toInt then [] else dot :: dot :: style.boundText x.hi

theorem exists_runText_of_isNamed (style : Style) (h : IsNamed x) :
    ∃ name, reservedName? x.lo.toInt = some name ∧ runText style x = name := by
  obtain ⟨name, hname⟩ := Option.isSome_iff_exists.1 h.2
  exact ⟨name, hname, by rw [runText, if_pos h.1, hname, Option.getD_some]⟩

theorem runText_of_not_isNamed (style : Style) (h : ¬ IsNamed x) :
    runText style x = style.boundText x.lo ++ rangeTail style x := by
  rw [runText, rangeTail]
  split_ifs with hsame
  · have hnone : reservedName? x.lo.toInt = none := by
      rw [← Option.not_isSome_iff_eq_none]
      exact fun hsome => h ⟨hsame, hsome⟩
    rw [hnone, Option.getD_none, List.append_nil]
  · rw [List.append_assoc]
    rfl

/-- What may follow a run. -/
def FollowsRun (c : CodePoint) : Prop :=
  ¬ IsDigit c ∧ c ≠ dot

theorem opensWith_rangeTail_append (hr : r.OpensWith FollowsRun) :
    (rangeTail style x ++ r).OpensWith fun c => ¬ IsDigit c := by
  rw [rangeTail]
  split_ifs
  · exact hr.mono fun c hc => hc.1
  · exact Text.opensWith_cons.2 (by decide)

/-- What follows the first bound can be read back. -/
theorem rangeTail_append_inj (hlo : style.keeps x.lo = style.keeps y.lo)
    (hr : r.OpensWith FollowsRun) (hs : s.OpensWith FollowsRun)
    (heq : rangeTail style x ++ r = rangeTail style y ++ s) :
    style.keepsBounds x = style.keepsBounds y ∧ r = s := by
  have hend (t : Text) : ¬ OpensWith FollowsRun (dot :: t) :=
    fun h => (Text.opensWith_cons.1 h).2 rfl
  have hloInt : x.lo.toInt = y.lo.toInt := by simpa using congrArg Bound.toInt hlo
  rw [rangeTail, rangeTail] at heq
  split_ifs at heq with hx hy hy
  · exact ⟨by rw [style.keepsBounds_of_eq hx, style.keepsBounds_of_eq hy, hloInt], heq⟩
  · rw [List.nil_append] at heq
    subst heq
    exact absurd hr (hend _)
  · rw [List.nil_append] at heq
    subst heq
    exact absurd hs (hend _)
  · simp only [List.cons_append, List.cons.injEq, true_and] at heq
    obtain ⟨hhi, hrest⟩ :=
      tells_boundText style (hr.mono fun c hc => hc.1) (hs.mono fun c hc => hc.1) heq
    exact ⟨Prod.ext hlo hhi, hrest⟩

/-- **The text of a run can be read back** if neither a digit nor a dot follows. -/
theorem tells_runText (style : Style) : Tells style.keepsBounds (runText style) FollowsRun := by
  intro x y r s hr hs heq
  have hangle : ¬ StartsBound openingAngle := by decide
  by_cases hx : IsNamed x
  · obtain ⟨name, hname, htext⟩ := exists_runText_of_isNamed style hx
    rw [htext] at heq
    by_cases hy : IsNamed y
    · obtain ⟨name', hname', htext'⟩ := exists_runText_of_isNamed style hy
      rw [htext'] at heq
      obtain ⟨hlo, hrest⟩ := reservedName_append_inj hname hname' heq
      exact ⟨by rw [style.keepsBounds_of_eq hx.1, style.keepsBounds_of_eq hy.1, hlo], hrest⟩
    · obtain ⟨u, rfl⟩ := exists_reservedName_eq_cons hname
      rw [runText_of_not_isNamed style hy, List.append_assoc] at heq
      exact absurd heq.symm (((startsWith_boundText style y.lo).append _).ne_cons hangle _)
  · rw [runText_of_not_isNamed style hx, List.append_assoc] at heq
    by_cases hy : IsNamed y
    · obtain ⟨name, hname, htext⟩ := exists_runText_of_isNamed style hy
      obtain ⟨u, rfl⟩ := exists_reservedName_eq_cons hname
      rw [htext] at heq
      exact absurd heq (((startsWith_boundText style x.lo).append _).ne_cons hangle _)
    · rw [runText_of_not_isNamed style hy, List.append_assoc] at heq
      obtain ⟨hlo, htail⟩ := tells_boundText style (opensWith_rangeTail_append hr)
        (opensWith_rangeTail_append hs) heq
      exact rangeTail_append_inj hlo hr hs htail

theorem startsWith_runText (style : Style) (x : Span) :
    (runText style x).StartsWith StartsItem := by
  by_cases hx : IsNamed x
  · obtain ⟨name, hname, htext⟩ := exists_runText_of_isNamed style hx
    obtain ⟨u, rfl⟩ := exists_reservedName_eq_cons hname
    rw [htext]
    exact Text.startsWith_cons.2 (.inr rfl)
  · rw [runText_of_not_isNamed style hx]
    exact ((startsWith_boundText style x.lo).append _).mono fun _ => .inl

/-! ### Sets -/

/-- What the text of several elements starts with. -/
def openingBrace : CodePoint :=
  CodePoint.ofChar '\x7b'

/-- What the text of several elements ends with. -/
def closingBrace : CodePoint :=
  CodePoint.ofChar '\x7d'

/-- The runs in a row. -/
def row (style : Style) (xs : List Span) : Text :=
  Text.joinComma (xs.map (runText style))

/-- What may follow a set. -/
def FollowsSet (c : CodePoint) : Prop :=
  FollowsRun c ∧ c ≠ comma

theorem startsWith_row (style : Style) (h : xs ≠ []) : (row style xs).StartsWith StartsItem := by
  obtain ⟨x, xs, rfl⟩ := List.exists_cons_of_ne_nil h
  cases xs with
  | nil =>
    rw [row, List.map_cons, List.map_nil, Text.joinComma_singleton]
    exact startsWith_runText style x
  | cons y ys =>
    rw [row, List.map_cons, List.map_cons, Text.joinComma_cons_cons]
    exact (startsWith_runText style x).append _

theorem row_append_inj (hxs : xs ≠ []) (hys : ys ≠ []) (hr : r.OpensWith FollowsSet)
    (hs : s.OpensWith FollowsSet) (heq : row style xs ++ r = row style ys ++ s) :
    xs.map style.keepsBounds = ys.map style.keepsBounds ∧ r = s := by
  have hcomma : FollowsRun comma := ⟨by decide, by decide⟩
  exact Text.joinComma_append_inj (tells_runText style) hcomma (fun _ hc => hc) hxs hys hr hs heq

/-- What stands in braces can be read back, though there may be nothing. -/
theorem row_append_closingBrace_inj (r s : Text)
    (heq : row style xs ++ closingBrace :: r = row style ys ++ closingBrace :: s) :
    xs.map style.keepsBounds = ys.map style.keepsBounds ∧ r = s := by
  have hclosing : ¬ StartsItem closingBrace := by decide
  have hfollows (t : Text) : OpensWith FollowsSet (closingBrace :: t) :=
    Text.opensWith_cons.2 ⟨⟨by decide, by decide⟩, by decide⟩
  by_cases hxs : xs = []
  · by_cases hys : ys = []
    · subst hxs hys
      exact ⟨rfl, (List.cons.inj (List.append_cancel_left heq)).2⟩
    · subst hxs
      exact absurd heq.symm (((startsWith_row style hys).append _).ne_cons hclosing _)
  · by_cases hys : ys = []
    · subst hys
      exact absurd heq (((startsWith_row style hxs).append _).ne_cons hclosing _)
    · obtain ⟨hsame, hrest⟩ := row_append_inj hxs hys (hfollows r) (hfollows s) heq
      exact ⟨hsame, (List.cons.inj hrest).2⟩

end Runs

namespace SpelledRuns

open Runs

variable {style : Style} {xs ys : SpelledRuns}

/-- Braces stand around the row of the runs unless there is exactly one element, or no element in
runs that are all empty. -/
theorem text_eq (style : Style) (xs : SpelledRuns) :
    xs.text style =
      if xs.runs = [] ∨ 1 < xs.runs.size then openingBrace :: (row style xs.spans ++ [closingBrace])
      else row style xs.spans := by
  obtain ⟨spans⟩ := xs
  cases spans with
  | nil =>
    rw [if_pos (.inl rfl)]
    rfl
  | cons x spans =>
    have hruns : SpelledRuns.runs ⟨x :: spans⟩ ≠ [] := List.cons_ne_nil _ _
    rw [text, if_neg (by simpa using hruns), enclose]
    simp only [hruns, false_or]
    rfl

theorem spans_ne_nil (h : xs.runs ≠ []) : xs.spans ≠ [] :=
  fun hspans => h (List.map_eq_nil_iff.2 hspans)

/-- **The text of a set can be read back** if no digit, dot or comma follows. -/
theorem tells_text (style : Style) :
    Tells (fun xs : SpelledRuns => xs.spans.map style.keepsBounds) (text style) FollowsSet := by
  intro xs ys r s hr hs heq
  have hopening : ¬ StartsItem openingBrace := by decide
  rw [text_eq, text_eq] at heq
  split_ifs at heq with hx hy hy
  · simp only [List.cons_append, List.cons.injEq, true_and, List.append_assoc,
      List.nil_append] at heq
    exact row_append_closingBrace_inj r s heq
  · have hys : ys.spans ≠ [] := spans_ne_nil fun h => hy (.inl h)
    exact absurd heq.symm (((startsWith_row style hys).append s).ne_cons hopening _)
  · have hxs : xs.spans ≠ [] := spans_ne_nil fun h => hx (.inl h)
    exact absurd heq (((startsWith_row style hxs).append r).ne_cons hopening _)
  · exact row_append_inj (spans_ne_nil fun h => hx (.inl h)) (spans_ne_nil fun h => hy (.inl h)) hr
      hs heq

/-- **Sets have the same text by numbers** if and only if they have the same runs, with the bounds
written alike. -/
theorem text_numbers_inj : xs.text .numbers = ys.text .numbers ↔ xs.spans = ys.spans := by
  refine ⟨fun heq => ?_, fun heq => by rw [text, text, runs, runs, heq]⟩
  exact Style.keepsBounds_numbers_injective.list_map ((tells_text .numbers).key_eq heq)

/-- **Sets have the same text by characters** if and only if they have the same runs. -/
theorem text_characters_inj : xs.text .characters = ys.text .characters ↔ xs.runs = ys.runs := by
  have hkeeps (xs : SpelledRuns) : (xs.spans.map (Style.keepsBounds .characters)).map
      (fun bounds => ⟨bounds.1.toInt, bounds.2.toInt⟩) = xs.runs := by
    rw [List.map_map]
    rfl
  have hrow (xs : SpelledRuns) : xs.spans.map (runText .characters) =
      xs.runs.map fun x => runText .characters (.plain x) := by
    rw [← xs.map_interval_spans, List.map_map]
    rfl
  refine ⟨fun heq => ?_, fun heq => ?_⟩
  · rw [← hkeeps xs, ← hkeeps ys]
    exact congrArg (List.map _) ((tells_text .characters).key_eq heq)
  · rw [text, text, hrow, hrow, heq]

end SpelledRuns

end SymbolSets
