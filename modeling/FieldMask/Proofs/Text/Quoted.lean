import FieldMask.Text.Quoted

/-!
# Resolving escapes in two passes

Replacing the escaped quotes first and the escaped backslashes after that
resolves the same pairs as reading from left to right. The first pass takes the
last backslash before a quote where reading takes pairs from the first one on;
either way half of the backslashes are left.

Results:
* `collapse_collapse`: the two passes and the reading pair by pair agree.
* `unescape_escape`: the written form of a text stands for it.
-/

namespace FieldMask.Quoted

theorem collapse_pair (c : Char) (rest : List Char) :
    collapse c ('\\' :: c :: rest) = c :: collapse c rest := by
  simp [collapse]

theorem collapse_cons_of_ne {a : Char} (h : a ≠ '\\') (c : Char) (rest : List Char) :
    collapse c (a :: rest) = a :: collapse c rest := by
  cases rest with
  | nil => rfl
  | cons b rest => simp [collapse, h]

theorem collapse_backslash_cons {b c : Char} (h : b ≠ c) (rest : List Char) :
    collapse c ('\\' :: b :: rest) = '\\' :: collapse c (b :: rest) := by
  simp [collapse, h]

/-- A pair of backslashes is resolved to the first of them, whatever follows. -/
theorem collapse_collapse_backslashes (rest : List Char) :
    collapse '\\' (collapse '\"' ('\\' :: '\\' :: rest)) =
      '\\' :: collapse '\\' (collapse '\"' rest) := by
  rw [collapse_backslash_cons (by decide)]
  cases rest with
  | nil => rfl
  | cons x rest =>
    by_cases hx : x = '\"'
    · -- The first pass takes the second backslash for the quote.
      rw [hx, collapse_pair, collapse_backslash_cons (by decide),
        collapse_cons_of_ne (a := '\"') (by decide) '\"']
    · rw [collapse_backslash_cons hx, collapse_pair]

/-- The two passes agree with reading pair by pair. -/
theorem collapse_collapse (content : List Char) :
    collapse '\\' (collapse '\"' content) = decode content := by
  fun_induction decode content with
  | case1 => rfl
  | case2 => rfl
  | case3 a b rest h ih =>
    simp only [Bool.and_eq_true, decide_eq_true_eq, isEscapable, Bool.or_eq_true] at h
    obtain ⟨rfl, rfl | rfl⟩ := h
    · rw [collapse_pair, collapse_cons_of_ne (by decide), ih]
    · rw [collapse_collapse_backslashes, ih]
  | case4 a b rest h ih =>
    by_cases ha : a = '\\'
    · obtain ⟨hq, hb⟩ : b ≠ '\"' ∧ b ≠ '\\' := by simpa [ha, isEscapable] using h
      rw [ha, collapse_backslash_cons hq, ← ih, collapse_cons_of_ne hb, collapse_backslash_cons hb]
    · rw [collapse_cons_of_ne ha, collapse_cons_of_ne ha, ih]

theorem unescape_escape (text : List Char) : unescape (escape text) = text := by
  rw [unescape, collapse_collapse, decode_escape]

end FieldMask.Quoted
