import FieldMask.Proofs.Pattern.Stepping

/-!
# What reading an expression depends on

To read an object, the reader looks ahead for the brace that closes it, through all
of the tokens that are left if need be. Yet an expression is told by its own tokens
and by whether a comma follows. What stands before it only moves the index at which
reading goes on, and what stands behind its comma changes nothing: the closing brace
is found before the look-ahead comes to it.

Results:
* `Reads.exists_taken`: the tokens of an expression, and what may stand behind them.
* `readNext_append`, `readNext_take_append`: other tokens before and behind an expression.
-/

namespace FieldMask

/-- The outcome of a step, with the index at which reading goes on moved right. -/
def NextExpression.shift (outcome : NextExpression) (offset : Nat) : NextExpression :=
  ⟨outcome.position + offset, outcome.selector?⟩

section Locality

variable {limit depth position next : Nat} {tokens left : List Token} {s : Selector}

/-- An expression takes some tokens. If the last of them is a comma, it is read alike in front
    of any others. -/
theorem Reads.exists_taken (h : Reads limit depth tokens (.ok (s, left))) :
    ∃ taken last, tokens = taken ++ last :: left ∧ (last.kind = .comma → ∀ others,
      Reads limit depth (taken ++ last :: others) (.ok (s, others))) := by
  cases h with
  | @leaf key first tail left hk hf =>
    cases hf with
    | nothing => exact ⟨[], first, rfl, fun hlast => by simp [hk] at hlast⟩
    | @comma separator left hc =>
      exact ⟨[first], separator, rfl, fun _ others => .leaf hk (.comma hc)⟩
  | @branch key first colon opening closing inner tail left children hh hd he hc hf =>
    cases hf with
    | nothing =>
      exact ⟨first :: colon :: opening :: inner, closing, rfl,
        fun hlast => by simp [he.brace_eq] at hlast⟩
    | @comma separator left hcomma =>
      have hshape (others : List Token) :
          first :: colon :: opening :: (inner ++ closing :: separator :: others) =
            first :: colon :: opening :: (inner ++ [closing]) ++ separator :: others := by simp
      refine ⟨_, separator, hshape left, fun _ others => ?_⟩
      rw [← hshape others]
      exact .branch hh hd he hc (.comma hcomma)

/-- Tokens before an expression move the index at which reading goes on behind it. -/
theorem readNext_append (limit depth position : Nat) (before tokens : List Token) :
    readNext limit depth (position + before.length) (before ++ tokens) =
      (readNext limit depth position tokens).map (·.shift before.length) := by
  have hdrop : (before ++ tokens).drop (position + before.length) = tokens.drop position := by
    rw [Nat.add_comm, ← List.drop_drop, List.drop_left]
  cases hd : tokens.drop position with
  | nil =>
    rw [readNext_of_drop_nil hd, readNext_of_drop_nil (hdrop.trans hd)]
    rfl
  | cons first rest =>
    rw [readNext_of_drop_cons hd, readNext_of_drop_cons (hdrop.trans hd)]
    cases readExpression limit depth first rest with
    | error error => rfl
    | ok reading =>
      have hposition : position + before.length + 1 + reading.more =
          position + 1 + reading.more + before.length := by omega
      simp only [Except.map, NextExpression.shift, hposition]

/-- Tokens behind the comma of an expression do not matter. -/
theorem readNext_take_append (h : readNext limit depth position tokens = .ok ⟨next, some s⟩)
    (hcomma : tokens[next - 1]?.map Token.kind = some .comma) (others : List Token) :
    readNext limit depth position (tokens.take next ++ others) = .ok ⟨next, some s⟩ := by
  obtain ⟨hlt, hle, hr⟩ := readNext_eq_some_iff.1 h
  obtain ⟨taken, last, hdrop, hothers⟩ := hr.exists_taken
  have hlength := congrArg List.length hdrop
  rw [List.length_append, List.length_cons, List.length_drop, List.length_drop] at hlength
  obtain ⟨n, rfl⟩ : ∃ n, next = position + n := Nat.exists_eq_add_of_le (Nat.le_of_lt hlt)
  have hn : n = taken.length + 1 := by omega
  have hlast : tokens[position + n - 1]? = some last := by
    have hindex : position + n - 1 = position + taken.length := by omega
    rw [hindex, ← List.getElem?_drop, hdrop]
    simp
  have hfront : (tokens.take (position + n)).drop position = taken ++ [last] := by
    rw [List.drop_take, Nat.add_sub_cancel_left, hdrop, hn, List.take_length_add_append]
    rfl
  have htake : (tokens.take (position + n)).length = position + n := by
    rw [List.length_take, Nat.min_eq_left hle]
  rw [hlast] at hcomma
  refine readNext_eq_some_iff.2 ⟨hlt, ?_, ?_⟩
  · rw [List.length_append, htake]
    omega
  · rw [List.drop_append_of_le_length (by omega), hfront, List.drop_left' htake,
      ← List.append_cons]
    exact hothers (Option.some.inj hcomma) others

end Locality

/-- Reading an expression goes on and is local. The index at which reading goes on lies behind
    the one at which the expression starts, and within the tokens. With other tokens put before
    all of them, reading comes to the same, at an index further right. If the last token that
    was read is a comma, reading comes to the same whatever tokens stand behind it. -/
theorem readNext_local (limit depth position : Nat) (tokens : List Token) :
    (∀ next s, readNext limit depth position tokens = .ok ⟨next, some s⟩ →
      position < next ∧ next ≤ tokens.length ∧
      (tokens[next - 1]?.map Token.kind = some .comma → ∀ others,
        readNext limit depth position (tokens.take next ++ others) = .ok ⟨next, some s⟩)) ∧
    ∀ before, readNext limit depth (position + before.length) (before ++ tokens) =
      (readNext limit depth position tokens).map (·.shift before.length) := by
  refine ⟨fun next s h => ?_, fun before => readNext_append limit depth position before tokens⟩
  obtain ⟨hlt, hle, -⟩ := readNext_eq_some_iff.1 h
  exact ⟨hlt, hle, fun hcomma others => readNext_take_append h hcomma others⟩

theorem readNext_local_nested :
    let tokens : List Token := [⟨.text "a", ⟨0, 1⟩⟩, ⟨.colon, ⟨1, 1⟩⟩, ⟨.openBrace, ⟨2, 1⟩⟩,
      ⟨.closeBrace, ⟨3, 1⟩⟩, ⟨.comma, ⟨4, 1⟩⟩, ⟨.closeBrace, ⟨5, 1⟩⟩]
    let others : List Token := [⟨.openBrace, ⟨5, 1⟩⟩, ⟨.colon, ⟨6, 1⟩⟩]
    let before : List Token := [⟨.openBrace, ⟨0, 1⟩⟩]
    readNext 2 1 0 tokens = .ok ⟨5, some (.branch "a" [])⟩ ∧ (0 < 5 ∧ 5 ≤ tokens.length) ∧
    readNext 2 1 0 (tokens.take 5 ++ others) = .ok ⟨5, some (.branch "a" [])⟩ ∧
    readNext 2 1 1 (before ++ tokens) = .ok ⟨6, some (.branch "a" [])⟩ := by
  intro tokens others before
  have hempty : Enclosed [] ⟨.closeBrace, ⟨3, 1⟩⟩ := ⟨balanced_nil, rfl⟩
  have hread : readNext 2 1 0 tokens = .ok ⟨5, some (.branch "a" [])⟩ :=
    readNext_eq_some_iff.2 ⟨by decide, by decide,
      .branch ⟨rfl, rfl, rfl⟩ (by decide) hempty readSiblings_nil (.comma rfl)⟩
  obtain ⟨hsome, hbefore⟩ := readNext_local 2 1 0 tokens
  obtain ⟨hlt, hle, hothers⟩ := hsome 5 _ hread
  refine ⟨hread, ⟨hlt, hle⟩, hothers rfl others, ?_⟩
  rw [hread] at hbefore
  exact hbefore before

end FieldMask
