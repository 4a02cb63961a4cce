import Mathlib.Data.List.Basic
import SymbolSets.Text.Quoted
import SymbolSets.Unicode.Printable

/-!
# Texts that are quoted as they are

A text of visible characters of ASCII and blanks is written between single quotes as it is, unless
it holds a single quote or a backslash.

## Main definitions

* `Text.Quoted.IsPlain`: the code points that are always written as themselves.

## Main results

* `Text.Quoted.encode_of_isPlain`: a text of such code points is only put in quotes.
-/

namespace SymbolSets.Text.Quoted

/-- The code point is a blank or a visible character of ASCII that needs no backslash in single
quotes. -/
def IsPlain (c : CodePoint) : Prop :=
  isAsciiGraphic c = true ∧ c ≠ singleQuote ∧ c ≠ backslash

instance (c : CodePoint) : Decidable (IsPlain c) :=
  inferInstanceAs (Decidable (_ ∧ _))

/-- The visible characters of ASCII and the blank are the first range of printable code points. -/
theorem isPrintable_of_isAsciiGraphic {c : CodePoint} (h : isAsciiGraphic c = true) :
    Unicode.isPrintable c = true := by
  have hfirst : 0 < Unicode.printableRanges.size := by decide +kernel
  rw [Unicode.isPrintable, Array.any_eq_true]
  exact ⟨0, hfirst, h⟩

variable {prints : CodePoint → Bool} {c : CodePoint} {t : Text}

theorem escape_of_isPlain (hc : IsPlain c) (hprints : prints c = true) :
    escape prints singleQuote c = [c] := by
  obtain ⟨hgraphic, hquote, hbackslash⟩ := hc
  simp only [isAsciiGraphic, Bool.and_eq_true, decide_eq_true_eq] at hgraphic
  rw [escape, if_neg (not_or.2 ⟨hquote, hbackslash⟩), if_neg (by omega), if_neg (by omega),
    if_neg (by omega), if_pos hprints]

/-- **A plain text is only put in quotes.** -/
theorem encode_of_isPlain (ht : ∀ c ∈ t, IsPlain c) (hprints : ∀ c ∈ t, prints c = true) :
    encode prints t = singleQuote :: t ++ [singleQuote] := by
  have hdelimiter : delimiter t = singleQuote := by
    have hnone : t.contains singleQuote = false := by
      simpa using fun hmem => (ht singleQuote hmem).2.1 rfl
    rw [delimiter, hnone]
    rfl
  have hescape : t.flatMap (escape prints singleQuote) = t := by
    rw [List.flatMap_congr fun c hc => escape_of_isPlain (ht c hc) (hprints c hc)]
    exact List.flatMap_singleton' t
  rw [encode, hdelimiter, hescape]

end SymbolSets.Text.Quoted
