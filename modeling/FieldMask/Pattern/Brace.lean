import FieldMask.Pattern.Token
import FieldMask.Word

/-!
# Matching braces

Among the tokens after an opening brace, the brace that closes it is the first
closing one that no brace opened in between takes for itself.
-/

namespace FieldMask

/-- How many tokens stand before the brace that closes the enclosing object, when `inner` objects
    inside it are open: the loop of `find_closing_brace` of `selector_tree::braces` (lines 11–32),
    whose count of open objects is `inner + 1`. -/
def closeOffset? (inner : Nat) : List Token → Option Nat
  | [] => none
  | token :: rest =>
    match token.kind, inner with
    | .openBrace, _ => (closeOffset? (inner + 1) rest).map (· + 1)
    | .closeBrace, 0 => some 0
    | .closeBrace, outer + 1 => (closeOffset? outer rest).map (· + 1)
    | _, _ => (closeOffset? inner rest).map (· + 1)

/-- The index of the brace that closes the object opened at index `start`, which is
    `find_closing_brace` of `selector_tree::braces` (lines 11–32). The token at `start` itself is
    not looked at. The index after `start` is counted in a word: behind the largest one the search
    would start at the first token. -/
def closingBrace? (start : Nat) (tokens : List Token) : Option Nat :=
  (closeOffset? 0 (tokens.drop (Word.next start))).map (· + Word.next start)

theorem closeOffset?_lt {inner n : Nat} {tokens : List Token}
    (h : closeOffset? inner tokens = some n) : n < tokens.length := by
  fun_induction closeOffset? inner tokens generalizing n with
  | case1 => simp at h
  | case3 => simp at h; simp [← h]
  | case2 _ _ _ _ ih | case4 _ _ _ _ ih | case5 _ _ _ _ _ _ ih =>
    obtain ⟨m, hm, rfl⟩ := Option.map_eq_some_iff.1 h
    have := ih hm
    simp; omega

theorem closingBrace?_of_lt {start : Nat} (h : start + 1 < USize.size) (tokens : List Token) :
    closingBrace? start tokens =
      (closeOffset? 0 (tokens.drop (start + 1))).map (· + (start + 1)) := by
  rw [closingBrace?, Word.next_of_lt h]

end FieldMask
