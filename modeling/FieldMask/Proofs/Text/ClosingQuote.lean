import FieldMask.Proofs.Basic
import FieldMask.Proofs.Text.Backslashes
import Mathlib.Order.Bounds.Defs

/-!
# The quote that closes a text

Behind the quote that opens a text, the quote that closes it is the first one with
an even number of backslashes directly before it. The search steps over a
backslash together with the character behind it if the two form a pair, so it
enters every run of backslashes at its start and leaves it, behind an even run, at
the next character.

A backslash that stands before any other character, or last, is no part of what
decides about a later quote, and the search goes on directly behind it.

Results:
* `closingQuoteFrom?_eq_some_iff`, `closingQuoteFrom?_eq_none_iff`: the closing quote by
  the number of backslashes before it.
* `unescapedFrom_iff_of_lone`, `closingQuoteFrom?_of_lone`: a backslash that escapes nothing.
-/

namespace FieldMask.Quoted

/-- The index of the quote that closes the text behind index `start`: `find_closing_quote` of
    `tokenizer::strings` (lines 29–41). -/
def closingQuoteFrom? (chars : List Char) (start : Nat) : Option Nat :=
  (closingQuote? (chars.drop (start + 1))).map (· + (start + 1))

/-- At index `q`, behind index `start`, stands a quote, and directly before it an even number
    of backslashes behind `start`. -/
structure UnescapedFrom (chars : List Char) (start q : Nat) : Prop where
  lt : start < q
  quote : chars[q]? = some '\"'
  even : backslashesBefore chars start q % 2 = 0

/-- At index `k` stands a backslash that forms no pair with the character behind it. -/
structure Lone (chars : List Char) (k : Nat) : Prop where
  backslash : chars[k]? = some '\\'
  escapes_none : ∀ d, chars[k + 1]? = some d → isEscapable d = false

section ClosingQuote

variable {chars : List Char} {start k q : Nat}

theorem unescapedFrom_add_iff {n : Nat} :
    UnescapedFrom chars start (start + 1 + n) ↔ Unescaped (chars.drop (start + 1)) n := by
  rw [unescaped_drop_iff]
  constructor
  · intro h
    exact ⟨h.quote, h.even⟩
  · rintro ⟨hq, heven⟩
    exact ⟨by omega, hq, heven⟩

/-! ## The first unescaped quote -/

theorem unescapedFrom_of_closingQuoteFrom? (h : closingQuoteFrom? chars start = some q) :
    UnescapedFrom chars start q := by
  obtain ⟨n, hn, rfl⟩ := Option.map_eq_some_iff.1 h
  rw [Nat.add_comm, unescapedFrom_add_iff]
  exact unescaped_of_closingQuote? hn

theorem exists_closingQuoteFrom?_le (h : UnescapedFrom chars start q) :
    ∃ p, closingQuoteFrom? chars start = some p ∧ p ≤ q := by
  obtain ⟨n, rfl⟩ : ∃ n, q = start + 1 + n := Nat.exists_eq_add_of_le h.lt
  rw [unescapedFrom_add_iff] at h
  refine Decidable.byContradiction fun hno => not_unescaped_of_lt (fun m hm => ?_) h
  refine Nat.lt_of_not_le fun hle => hno ⟨m + (start + 1), ?_, by omega⟩
  rw [closingQuoteFrom?, hm]
  rfl

/-- The closing quote is the first one with an even number of backslashes before it. -/
theorem closingQuoteFrom?_eq_some_iff :
    closingQuoteFrom? chars start = some q ↔ IsLeast {p | UnescapedFrom chars start p} q := by
  constructor
  · intro h
    refine ⟨unescapedFrom_of_closingQuoteFrom? h, fun p hp => ?_⟩
    obtain ⟨first, hfirst, hle⟩ := exists_closingQuoteFrom?_le hp
    obtain rfl := Option.some.inj (h.symm.trans hfirst)
    exact hle
  · rintro ⟨hq, hleast⟩
    obtain ⟨first, hfirst, hle⟩ := exists_closingQuoteFrom?_le hq
    have hge := hleast (unescapedFrom_of_closingQuoteFrom? hfirst)
    rw [hfirst, Nat.le_antisymm hle hge]

theorem closingQuoteFrom?_eq_none_iff :
    closingQuoteFrom? chars start = none ↔ ∀ q, ¬UnescapedFrom chars start q := by
  constructor
  · intro h q hq
    obtain ⟨first, hfirst, -⟩ := exists_closingQuoteFrom?_le hq
    rw [h] at hfirst
    contradiction
  · intro h
    rw [Option.eq_none_iff_forall_ne_some]
    exact fun q hq => h q (unescapedFrom_of_closingQuoteFrom? hq)

/-! ## A backslash that escapes nothing -/

/-- Behind it stands a character that ends the run, so it does not count for a later quote. -/
theorem Lone.backslashesBefore_eq (h : Lone chars k) (hk : start < k) (hq : k < q)
    (hquote : chars[q]? = some '\"') :
    backslashesBefore chars start q = backslashesBefore chars k q := by
  -- The quote does not stand directly behind the backslash, which would escape it.
  have hlt : k + 1 < q := by
    refine Nat.lt_of_le_of_ne hq fun heq => ?_
    have hplain := h.escapes_none '\"' (by rw [heq, hquote])
    contradiction
  obtain ⟨hlength, -⟩ := List.getElem?_eq_some_iff.1 hquote
  have hwindow : k + 1 < (chars.take q).length := by
    rw [List.length_take]
    omega
  obtain ⟨d, hd⟩ : ∃ d, (chars.take q)[k + 1] = d := ⟨_, rfl⟩
  have hback := List.drop_eq_getElem_cons hwindow
  rw [hd] at hback
  have hne : d ≠ '\\' := by
    rintro rfl
    have hplain := h.escapes_none '\\' (by
      rw [List.getElem_take] at hd
      rw [List.getElem?_eq_getElem (by omega), hd])
    contradiction
  obtain ⟨front, hfront, -⟩ :=
    exists_drop_eq_append (Nat.succ_le_succ (Nat.le_of_lt hk)) (Nat.le_of_lt hwindow)
  rw [backslashesBefore, backslashesBefore, hfront, hback, backslashes_append_cons hne]
  exact (backslashes_append_cons hne [] _).symm

/-- It hides no quote behind it. -/
theorem unescapedFrom_iff_of_lone (h : Lone chars k) (hk : start < k) (hq : k < q) :
    UnescapedFrom chars start q ↔ UnescapedFrom chars k q := by
  constructor
  · intro hu
    refine ⟨hq, hu.quote, ?_⟩
    rw [← h.backslashesBefore_eq hk hq hu.quote]
    exact hu.even
  · intro hu
    refine ⟨Nat.lt_trans hk hq, hu.quote, ?_⟩
    rw [h.backslashesBefore_eq hk hq hu.quote]
    exact hu.even

/-- The search goes on directly behind it. -/
theorem closingQuoteFrom?_of_lone (h : Lone chars k) (hk : start < k)
    (hopen : ∀ q, closingQuoteFrom? chars start = some q → k < q) :
    closingQuoteFrom? chars start = closingQuoteFrom? chars k := by
  have hbehind : ∀ q, UnescapedFrom chars start q → k < q := by
    intro q hq
    obtain ⟨first, hfirst, hle⟩ := exists_closingQuoteFrom?_le hq
    exact Nat.lt_of_lt_of_le (hopen first hfirst) hle
  have hsame : {p | UnescapedFrom chars start p} = {p | UnescapedFrom chars k p} := by
    ext q
    constructor
    · intro hq
      exact (unescapedFrom_iff_of_lone h hk (hbehind q hq)).1 hq
    · intro hq
      exact (unescapedFrom_iff_of_lone h hk hq.lt).2 hq
  ext q
  rw [closingQuoteFrom?_eq_some_iff, closingQuoteFrom?_eq_some_iff, hsame]

end ClosingQuote

/-- The closing quote is told by the number of backslashes before a quote. It is the first quote
    behind the opening one with an even number of backslashes directly before it, and there is
    none if every quote has an odd number of them. A backslash that stands last or before a
    character that it does not escape hides no quote behind it, and unless the text is closed
    before, the search goes on at the next character. -/
theorem closingQuoteFrom?_exact (chars : List Char) (start : Nat) :
    (∀ q, closingQuoteFrom? chars start = some q ↔ IsLeast {p | UnescapedFrom chars start p} q) ∧
    (closingQuoteFrom? chars start = none ↔ ∀ q, ¬UnescapedFrom chars start q) ∧
    ∀ k, start < k → Lone chars k →
      (∀ q, k < q → (UnescapedFrom chars start q ↔ UnescapedFrom chars k q)) ∧
      ((∀ q, closingQuoteFrom? chars start = some q → k < q) →
        closingQuoteFrom? chars start = closingQuoteFrom? chars k) := by
  refine ⟨fun q => closingQuoteFrom?_eq_some_iff, closingQuoteFrom?_eq_none_iff,
    fun k hk h => ⟨fun q hq => unescapedFrom_iff_of_lone h hk hq, fun hopen => ?_⟩⟩
  exact closingQuoteFrom?_of_lone h hk hopen

theorem closingQuoteFrom?_exact_lone :
    let chars := ['\"', '\\', '\\', '\\', '\"', '\\', 'n', '\"', '\\']
    IsLeast {p | UnescapedFrom chars 0 p} 7 ∧
    (Lone chars 5 ∧ (UnescapedFrom chars 0 7 ↔ UnescapedFrom chars 5 7) ∧
      closingQuoteFrom? chars 5 = some 7) ∧
    Lone chars 8 ∧ closingQuoteFrom? chars 7 = closingQuoteFrom? chars 8 := by
  intro chars
  have hfound : closingQuoteFrom? chars 0 = some 7 := rfl
  have hunclosed : closingQuoteFrom? chars 7 = none := rfl
  have hmiddle : Lone chars 5 := by
    refine ⟨rfl, fun d hd => ?_⟩
    obtain rfl := Option.some.inj hd
    rfl
  have hlast : Lone chars 8 := ⟨rfl, fun d hd => by contradiction⟩
  obtain ⟨hleast, -, hlone⟩ := closingQuoteFrom?_exact chars 0
  obtain ⟨-, -, hloneEnd⟩ := closingQuoteFrom?_exact chars 7
  have hopen : ∀ q, closingQuoteFrom? chars 0 = some q → 5 < q := by
    intro q hq
    obtain rfl := Option.some.inj (hfound.symm.trans hq)
    decide
  have hopenEnd : ∀ q, closingQuoteFrom? chars 7 = some q → 8 < q := by
    intro q hq
    rw [hunclosed] at hq
    contradiction
  obtain ⟨hparity, hgoes⟩ := hlone 5 (by decide) hmiddle
  exact ⟨(hleast 7).1 hfound, ⟨hmiddle, hparity 7 (by decide), (hgoes hopen).symm.trans hfound⟩,
    hlast, (hloneEnd 8 (by decide) hlast).2 hopenEnd⟩

end FieldMask.Quoted
