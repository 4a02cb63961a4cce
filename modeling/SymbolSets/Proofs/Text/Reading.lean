import Mathlib.Data.List.Basic
import Mathlib.Tactic.IntervalCases
import SymbolSets.Text.Basic

/-!
# Reading back what is written

A numeral that is followed by something else is read as far as there are digits, so it can be read
back if no digit follows. The same is said of other ways to write things: what is written ends where
it ends, as long as what follows starts with none of certain code points. Of what is written in a
row, with commas between, each item is followed by a comma or by what follows the row.

## Main definitions

* `Text.OpensWith`, `Text.StartsWith`: what a text starts with if it is not empty, or in any case.
* `Text.Tells`, `Text.Delimits`: a way to write things that can be read back in part, or as a whole,
  whatever may follow.
* `Text.IsDigit`, `Text.value`: the digits, and the number that they stand for.

## Main results

* `Text.delimits_ofNat`, `Text.delimits_ofInt`: numerals can be read back if no digit follows.
* `Text.joinComma_append_inj`: rows can be read back item by item.
-/

namespace SymbolSets.Text

/-! ### Texts that can be read -/

/-- The text is empty or starts with a code point that has the property. -/
def OpensWith (p : CodePoint → Prop) (t : Text) : Prop :=
  ∀ c ∈ t.head?, p c

/-- The text starts with a code point that has the property. -/
def StartsWith (p : CodePoint → Prop) (t : Text) : Prop :=
  ∃ c ∈ t.head?, p c

/-- What is written by `f` ends where it ends: it can be told from what follows, if this starts with
a code point that has the property. Of what is written so much can be read back as `key` keeps. -/
def Tells {α κ : Type} (key : α → κ) (f : α → Text) (p : CodePoint → Prop) : Prop :=
  ∀ ⦃a b : α⦄ ⦃r s : Text⦄, r.OpensWith p → s.OpensWith p → f a ++ r = f b ++ s →
    key a = key b ∧ r = s

/-- What is written by `f` can be read back as a whole. -/
def Delimits {α : Type} (f : α → Text) (p : CodePoint → Prop) : Prop :=
  Tells id f p

variable {α κ : Type} {key : α → κ} {f : α → Text} {p q : CodePoint → Prop} {c : CodePoint}
  {r t : Text}

theorem opensWith_nil : OpensWith p [] :=
  nofun

theorem opensWith_cons : OpensWith p (c :: r) ↔ p c := by
  simp [OpensWith]

theorem OpensWith.mono (h : r.OpensWith p) (hpq : ∀ c, p c → q c) : r.OpensWith q :=
  fun c hc => hpq c (h c hc)

theorem startsWith_cons : StartsWith p (c :: r) ↔ p c := by
  simp [StartsWith]

theorem StartsWith.mono (h : t.StartsWith p) (hpq : ∀ c, p c → q c) : t.StartsWith q := by
  obtain ⟨c, hc, hp⟩ := h
  exact ⟨c, hc, hpq c hp⟩

theorem StartsWith.append (h : t.StartsWith p) (r : Text) : StartsWith p (t ++ r) := by
  obtain ⟨c, hc, hp⟩ := h
  exact ⟨c, List.mem_head?_append_of_mem_head? hc, hp⟩

/-- Two texts differ if one starts with what the other one does not start with. -/
theorem StartsWith.ne_cons (h : t.StartsWith p) (hc : ¬ p c) (r : Text) : t ≠ c :: r := by
  rintro rfl
  exact hc (startsWith_cons.1 h)

/-- Two texts differ if what one starts with is nothing that the other one can start with. -/
theorem StartsWith.ne {u : Text} (h : t.StartsWith p) (hu : u.StartsWith q)
    (hpq : ∀ c, p c → ¬ q c) : t ≠ u := by
  rintro rfl
  obtain ⟨c, hc, hp⟩ := h
  obtain ⟨d, hd, hq⟩ := hu
  obtain rfl : c = d := Option.mem_unique hc hd
  exact hpq c hp hq

/-- Nothing may follow in any case. -/
theorem Tells.key_eq (h : Tells key f p) {a b : α} (heq : f a = f b) : key a = key b :=
  (h opensWith_nil opensWith_nil (by rw [heq] : f a ++ [] = f b ++ [])).1

/-! ### Rows -/

/-- What stands between two items of a row. -/
def comma : CodePoint :=
  CodePoint.ofChar ','

/-- What follows a comma. -/
def blank : CodePoint :=
  CodePoint.ofChar ' '

theorem joinComma_singleton (t : Text) : joinComma [t] = t :=
  List.intercalate_singleton

theorem joinComma_cons_cons (t u : Text) (ts : List Text) :
    joinComma (t :: u :: ts) = t ++ comma :: blank :: joinComma (u :: ts) := by
  rw [joinComma, List.intercalate_cons_cons, List.append_assoc]
  rfl

/-- **Rows can be read back item by item.** After an item comes a comma, or the row ends and is not
followed by a comma. The induction is on the items. -/
theorem joinComma_append_inj (hf : Tells key f q) (hcomma : q comma)
    (hp : ∀ c, p c → q c ∧ c ≠ comma) {as bs : List α} (has : as ≠ []) (hbs : bs ≠ [])
    {r s : Text} (hr : r.OpensWith p) (hs : s.OpensWith p)
    (heq : joinComma (as.map f) ++ r = joinComma (bs.map f) ++ s) :
    as.map key = bs.map key ∧ r = s := by
  have hrest {t : Text} (ht : t.OpensWith p) : t.OpensWith q := ht.mono fun c hc => (hp c hc).1
  have hnext (t : Text) : OpensWith q (comma :: t) := opensWith_cons.2 hcomma
  have hend (t : Text) : ¬ OpensWith p (comma :: t) :=
    fun h => (hp comma (opensWith_cons.1 h)).2 rfl
  induction as generalizing bs with
  | nil => exact absurd rfl has
  | cons a as ih =>
    obtain ⟨b, bs, rfl⟩ := List.exists_cons_of_ne_nil hbs
    cases as with
    | nil =>
      cases bs with
      | nil =>
        simp only [List.map_cons, List.map_nil, joinComma_singleton] at heq
        obtain ⟨hkey, rfl⟩ := hf (hrest hr) (hrest hs) heq
        exact ⟨congrArg₂ List.cons hkey rfl, rfl⟩
      | cons b' bs =>
        simp only [List.map_cons, List.map_nil, joinComma_singleton, joinComma_cons_cons,
          List.append_assoc, List.cons_append] at heq
        obtain ⟨-, rfl⟩ := hf (hrest hr) (hnext _) heq
        exact absurd hr (hend _)
    | cons a' as =>
      cases bs with
      | nil =>
        simp only [List.map_cons, List.map_nil, joinComma_singleton, joinComma_cons_cons,
          List.append_assoc, List.cons_append] at heq
        obtain ⟨-, rfl⟩ := hf (hnext _) (hrest hs) heq
        exact absurd hs (hend _)
      | cons b' bs =>
        simp only [List.map_cons, joinComma_cons_cons, List.append_assoc, List.cons_append] at heq
        obtain ⟨hkey, htail⟩ := hf (hnext _) (hnext _) heq
        simp only [List.cons.injEq, true_and] at htail
        obtain ⟨hsame, rfl⟩ := ih (List.cons_ne_nil a' as) (List.cons_ne_nil b' bs) htail
        exact ⟨congrArg₂ List.cons hkey hsame, rfl⟩

/-! ### Digits -/

/-- The code point is a decimal digit. -/
def IsDigit (c : CodePoint) : Prop :=
  48 ≤ c.val ∧ c.val ≤ 57

instance (c : CodePoint) : Decidable (IsDigit c) :=
  inferInstanceAs (Decidable (_ ∧ _))

theorem val_digit {d : Nat} (h : d < 10) : (digit d).val = 48 + d := by
  interval_cases d <;> rfl

theorem isDigit_digit {d : Nat} (h : d < 10) : IsDigit (digit d) := by
  rw [IsDigit, val_digit h]
  omega

theorem isDigit_of_mem_ofNat {n : Nat} : ∀ c ∈ ofNat n, IsDigit c := by
  induction n using ofNat.induct with
  | case1 n h =>
    rw [ofNat, if_pos h]
    simpa using isDigit_digit h
  | case2 n h ih =>
    rw [ofNat, if_neg h]
    have hlast : IsDigit (digit (n % 10)) := isDigit_digit (Nat.mod_lt n (by decide))
    simpa [or_imp, forall_and] using ⟨ih, hlast⟩

theorem startsWith_ofNat (n : Nat) : (ofNat n).StartsWith IsDigit := by
  cases h : ofNat n with
  | nil =>
    rw [ofNat] at h
    split at h
    · cases h
    · exact absurd (List.append_eq_nil_iff.1 h).2 (List.cons_ne_nil _ _)
  | cons c t =>
    have hc : c ∈ ofNat n := by
      rw [h]
      exact List.mem_cons_self
    exact startsWith_cons.2 (isDigit_of_mem_ofNat c hc)

/-! ### Numerals -/

/-- The number that a row of digits stands for. -/
def value (t : Text) : Nat :=
  t.foldl (fun n c => 10 * n + (c.val - 48)) 0

/-- **A numeral stands for the number that it is the numeral of.** -/
theorem value_ofNat (n : Nat) : value (ofNat n) = n := by
  induction n using ofNat.induct with
  | case1 n h =>
    rw [ofNat, if_pos h, value, List.foldl_cons, List.foldl_nil, val_digit h]
    omega
  | case2 n h ih =>
    have hlast : (digit (n % 10)).val = 48 + n % 10 := val_digit (Nat.mod_lt n (by decide))
    rw [ofNat, if_neg h, value, List.foldl_append, List.foldl_cons, List.foldl_nil, hlast]
    rw [value] at ih
    rw [ih]
    omega

/-- The digits of a numeral are those up to where no digit follows. -/
theorem takeWhile_ofNat_append (n : Nat) (h : r.OpensWith fun c => ¬ IsDigit c) :
    (ofNat n ++ r).takeWhile (fun c => IsDigit c) = ofNat n := by
  have hstop : r.takeWhile (fun c => IsDigit c) = [] := by
    cases r with
    | nil => rfl
    | cons c r => simp [opensWith_cons.1 h]
  rw [List.takeWhile_append_of_pos fun c hc => by simpa using isDigit_of_mem_ofNat c hc, hstop,
    List.append_nil]

/-- **A numeral can be read if no digit follows.** -/
theorem delimits_ofNat : Delimits ofNat fun c => ¬ IsDigit c := by
  intro m n r s hr hs heq
  have hsame : ofNat m = ofNat n := by
    rw [← takeWhile_ofNat_append m hr, heq, takeWhile_ofNat_append n hs]
  rw [hsame] at heq
  exact ⟨by rw [← value_ofNat m, hsame, value_ofNat], List.append_cancel_left heq⟩

/-- The sign of a negative number. -/
def minus : CodePoint :=
  CodePoint.ofChar '-'

/-- The numeral of an integer starts with its sign or with a digit. -/
theorem startsWith_ofInt (v : Int) : (ofInt v).StartsWith fun c => IsDigit c ∨ c = minus := by
  cases v with
  | ofNat n => exact (startsWith_ofNat n).mono fun _ => .inl
  | negSucc n => exact startsWith_cons.2 (.inr rfl)

/-- **The numeral of an integer can be read if no digit follows.** -/
theorem delimits_ofInt : Delimits ofInt fun c => ¬ IsDigit c := by
  intro v w r s hr hs heq
  have hminus : ¬ IsDigit minus := by decide
  cases v with
  | ofNat m =>
    cases w with
    | ofNat n =>
      obtain ⟨hsame, hrest⟩ := delimits_ofNat hr hs heq
      exact ⟨congrArg Int.ofNat hsame, hrest⟩
    | negSucc n => exact absurd heq (((startsWith_ofNat m).append r).ne_cons hminus _)
  | negSucc m =>
    cases w with
    | ofNat n => exact absurd heq.symm (((startsWith_ofNat n).append s).ne_cons hminus _)
    | negSucc n =>
      obtain ⟨hsame, hrest⟩ := delimits_ofNat hr hs (List.cons.inj heq).2
      exact ⟨congrArg Int.negSucc (Nat.add_right_cancel hsame), hrest⟩

end SymbolSets.Text
