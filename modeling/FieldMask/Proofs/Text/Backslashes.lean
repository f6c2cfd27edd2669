import FieldMask.Text.Quoted

/-!
# Backslashes before a quote

Reading quoted text goes over it pair by pair. Whether a quote belongs to a pair
can be told without reading: it does if an odd number of backslashes stands
directly before it, since a run of backslashes is never entered in the middle of
a pair.

Results:
* `unescaped_of_closingQuote?`, `not_unescaped_of_lt`: the closing quote is the first
  one before which the number of backslashes is even.
* `closingQuote?_eq_none_iff`: text is unclosed if every quote is escaped.
-/

namespace FieldMask.Quoted

/-- How many backslashes stand at the end of the characters. -/
def backslashes (chars : List Char) : Nat :=
  (chars.reverse.takeWhile (· = '\\')).length

/-- At the index stands a quote with an even number of backslashes directly before it. -/
def Unescaped (chars : List Char) (q : Nat) : Prop :=
  chars[q]? = some '\"' ∧ backslashes (chars.take q) % 2 = 0

/-! ## Runs of backslashes -/

/-- Another character ends the run. -/
theorem backslashes_append_cons {c : Char} (hc : c ≠ '\\') (front back : List Char) :
    backslashes (front ++ c :: back) = backslashes back := by
  have hstop : (c :: front.reverse).takeWhile (· = '\\') = [] := by simp [hc]
  have hreverse : (front ++ c :: back).reverse = back.reverse ++ c :: front.reverse := by simp
  rw [backslashes, hreverse, List.takeWhile_append, hstop, List.append_nil, backslashes]
  split
  · next hall => rw [hall]
  · rfl

/-- A pair of backslashes does not change whether a run is even. -/
theorem backslashes_pair (back : List Char) :
    backslashes ('\\' :: '\\' :: back) % 2 = backslashes back % 2 := by
  have hreverse : ('\\' :: '\\' :: back).reverse = back.reverse ++ ['\\', '\\'] := by simp
  rw [backslashes, hreverse, List.takeWhile_append, backslashes]
  split
  · next hall =>
    have hpair : ['\\', '\\'].takeWhile (· = '\\') = ['\\', '\\'] := by simp
    rw [hpair, List.length_append, hall]
    exact Nat.add_mod_right _ 2
  · rfl

/-! ## Unescaped quotes -/

section Unescaped

variable {c d : Char} {rest : List Char} {q : Nat}

theorem unescaped_zero_iff : Unescaped (c :: rest) 0 ↔ c = '\"' := by
  simp [Unescaped, backslashes]

/-- Another character than a backslash does not count for the quotes behind it. -/
theorem unescaped_succ_iff (hc : c ≠ '\\') : Unescaped (c :: rest) (q + 1) ↔ Unescaped rest q := by
  have hrun : backslashes (c :: rest.take q) = backslashes (rest.take q) :=
    backslashes_append_cons hc [] _
  simp only [Unescaped, List.getElem?_cons_succ, List.take_succ_cons, hrun]

theorem not_unescaped_one : ¬Unescaped ('\\' :: d :: rest) 1 := by
  rintro ⟨-, heven⟩
  contradiction

/-- Neither do a backslash and the character behind it together. -/
theorem unescaped_pair_iff : Unescaped ('\\' :: d :: rest) (q + 2) ↔ Unescaped rest q := by
  have hparity : backslashes ('\\' :: d :: rest.take q) % 2 = backslashes (rest.take q) % 2 := by
    by_cases hd : d = '\\'
    · rw [hd, backslashes_pair]
    · exact congrArg (· % 2) (backslashes_append_cons hd ['\\'] _)
  simp only [Unescaped, List.getElem?_cons_succ, List.take_succ_cons, hparity]

/-- Nor does a character that starts no pair. -/
theorem unescaped_cons_iff (hc : ¬(c = '\\' ∧ isEscapable d = true)) :
    Unescaped (c :: d :: rest) (q + 1) ↔ Unescaped (d :: rest) q := by
  by_cases hb : c = '\\'
  · subst hb
    obtain ⟨hquote, hd⟩ : d ≠ '\"' ∧ d ≠ '\\' := by simpa [isEscapable] using hc
    cases q with
    | zero => exact iff_of_false not_unescaped_one (by rwa [unescaped_zero_iff])
    | succ q => rw [unescaped_pair_iff, unescaped_succ_iff hd]
  · exact unescaped_succ_iff hb

end Unescaped

/-! ## The closing quote -/

theorem unescaped_of_closingQuote? {chars : List Char} {n : Nat}
    (h : closingQuote? chars = some n) : Unescaped chars n := by
  fun_induction closingQuote? chars generalizing n with
  | case1 => contradiction
  | case2 =>
    obtain rfl := Option.some.inj h
    exact unescaped_zero_iff.2 rfl
  | case3 => contradiction
  | case4 =>
    obtain rfl := Option.some.inj h
    exact unescaped_zero_iff.2 rfl
  | case5 c d rest hq hc ih =>
    simp only [Bool.and_eq_true, decide_eq_true_eq] at hc
    obtain ⟨rfl, -⟩ := hc
    obtain ⟨m, hm, rfl⟩ := Option.map_eq_some_iff.1 h
    exact unescaped_pair_iff.2 (ih hm)
  | case6 c d rest hq hc ih =>
    simp only [Bool.and_eq_true, decide_eq_true_eq] at hc
    obtain ⟨m, hm, rfl⟩ := Option.map_eq_some_iff.1 h
    exact (unescaped_cons_iff hc).2 (ih hm)

/-- Every quote before the closing one is escaped, and every quote if none closes the text. -/
theorem not_unescaped_of_lt {chars : List Char} {q : Nat}
    (h : ∀ n, closingQuote? chars = some n → q < n) : ¬Unescaped chars q := by
  fun_induction closingQuote? chars generalizing q with
  | case1 => simp [Unescaped]
  | case2 => exact absurd (h 0 rfl) (Nat.not_lt_zero q)
  | case3 c hq =>
    cases q with
    | zero => rwa [unescaped_zero_iff]
    | succ q => simp [Unescaped]
  | case4 => exact absurd (h 0 rfl) (Nat.not_lt_zero q)
  | case5 c d rest hq hc ih =>
    simp only [Bool.and_eq_true, decide_eq_true_eq] at hc
    obtain ⟨rfl, -⟩ := hc
    match q with
    | 0 => rwa [unescaped_zero_iff]
    | 1 => exact not_unescaped_one
    | q + 2 =>
      rw [unescaped_pair_iff]
      refine ih fun n hn => ?_
      have hlt := h (n + 2) (by rw [hn]; rfl)
      omega
  | case6 c d rest hq hc ih =>
    simp only [Bool.and_eq_true, decide_eq_true_eq] at hc
    cases q with
    | zero => rwa [unescaped_zero_iff]
    | succ q =>
      rw [unescaped_cons_iff hc]
      refine ih fun n hn => ?_
      have hlt := h (n + 1) (by rw [hn]; rfl)
      omega

theorem closingQuote?_eq_none_iff {chars : List Char} :
    closingQuote? chars = none ↔ ∀ q, ¬Unescaped chars q := by
  constructor
  · intro h q
    refine not_unescaped_of_lt fun n hn => ?_
    rw [h] at hn
    contradiction
  · intro h
    cases hn : closingQuote? chars with
    | none => rfl
    | some n => exact absurd (unescaped_of_closingQuote? hn) (h n)

/-- How many backslashes stand directly before index `q`, of the characters behind index `start`. -/
def backslashesBefore (chars : List Char) (start q : Nat) : Nat :=
  backslashes ((chars.take q).drop (start + 1))

theorem unescaped_drop_iff {chars : List Char} {start k : Nat} :
    Unescaped (chars.drop (start + 1)) k ↔ chars[start + 1 + k]? = some '\"' ∧
      backslashesBefore chars start (start + 1 + k) % 2 = 0 := by
  rw [Unescaped, List.getElem?_drop, List.take_drop, backslashesBefore]

/-- The text behind the quote at index `start` is unclosed if every quote in it is escaped. -/
theorem closingQuote?_drop_eq_none_iff {chars : List Char} {start : Nat} :
    closingQuote? (chars.drop (start + 1)) = none ↔
      ∀ q, start < q → chars[q]? = some '\"' → backslashesBefore chars start q % 2 = 1 := by
  rw [closingQuote?_eq_none_iff]
  constructor
  · intro h q hlt hq
    obtain ⟨k, rfl⟩ : ∃ k, q = start + 1 + k := Nat.exists_eq_add_of_le hlt
    have hodd := h k
    rw [unescaped_drop_iff] at hodd
    have hne : ¬backslashesBefore chars start (start + 1 + k) % 2 = 0 := fun h0 => hodd ⟨hq, h0⟩
    omega
  · intro h k hk
    obtain ⟨hq, heven⟩ := unescaped_drop_iff.1 hk
    have hodd := h (start + 1 + k) (by omega) hq
    omega

end FieldMask.Quoted
