import FieldMask.Proofs.Pattern.Balance
import FieldMask.Proofs.Pattern.Parametric

/-!
# Depths in words

The builder counts depths in words. As long as no depth is counted beyond the largest
word, it is the builder that counts without an end. Depths end at the limit, and below a
given depth there are only as many as there are opening braces, so either bound will do.

Results:
* `Word.buildObject_eq`: where words suffice, both builders come to the same.
-/

namespace FieldMask

theorem countKind_le {kind : TokenKind} {inner tokens : List Token} (h : inner.Sublist tokens) :
    countKind kind inner ≤ countKind kind tokens :=
  (h.map Token.kind).count_le kind

/-- Behind an opening brace there is one opening brace less. -/
theorem Within.countKind_lt {inner tokens : List Token} (h : Within inner tokens) :
    countKind .openBrace inner < countKind .openBrace tokens := by
  obtain ⟨opening, ho, hinfix⟩ := h
  have hle : countKind .openBrace (opening :: inner) ≤ _ := countKind_le hinfix.sublist
  rw [countKind, List.map_cons, ho, List.count_cons_self] at hle
  exact hle

namespace Word

/-- Words suffice to count the depths in an object of depth `depth`: neither the limit nor the
    depth is the largest word, or there are words for all objects inside one another. -/
def Suffice (limit depth : Nat) (tokens : List Token) : Prop :=
  limit + 1 < USize.size ∧ depth + 1 < USize.size ∨
    depth + countKind .openBrace tokens < USize.size

section Suffice

variable {limit depth : Nat} {inner tokens : List Token}

theorem Suffice.next_eq (h : Suffice limit depth tokens) (hw : Within inner tokens) :
    next depth = depth + 1 := by
  have := hw.countKind_lt
  refine next_of_lt ?_
  rcases h with ⟨-, h⟩ | h <;> omega

theorem Suffice.inside (h : Suffice limit depth tokens) (hw : Within inner tokens)
    (hle : depth + 1 ≤ limit) : Suffice limit (depth + 1) inner := by
  have := hw.countKind_lt
  rcases h with ⟨hlimit, -⟩ | h
  · exact .inl ⟨hlimit, by omega⟩
  · exact .inr (by omega)

theorem Suffice.of_sublist (h : Suffice limit depth tokens) (hs : inner.Sublist tokens) :
    Suffice limit depth inner := by
  have hle : countKind .openBrace inner ≤ _ := countKind_le hs
  rcases h with h | h
  · exact .inl h
  · exact .inr (by omega)

/-- By induction on the tokens: the objects inside are built alike, and at the same depth. -/
theorem buildObject_eq (h : Suffice limit depth tokens) :
    buildObject limit depth tokens = FieldMask.buildObject limit depth tokens := by
  induction hlength : tokens.length using Nat.strongRecOn generalizing depth tokens with
  | ind size ih =>
    subst hlength
    have hequal : Respects fun α (x y : Except PatternError α) => x = y :=
      ⟨fun _ => rfl, fun _ => rfl, fun hx hf => by rw [hx, funext hf]⟩
    rw [buildObject, FieldMask.buildObject, readSiblings]
    refine readSiblingsWith_related hequal [] fun inner hw => ?_
    rw [h.next_eq hw]
    exact ⟨rfl, fun hle => ih _ hw.length_lt (h.inside hw hle) rfl⟩

end Suffice

end Word

end FieldMask
