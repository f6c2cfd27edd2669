import FieldMask.Pattern.Grammar
import FieldMask.Proofs.Pattern.Reading
import FieldMask.Proofs.Pattern.Words
import FieldMask.Selector.Siblings

/-!
# The builder accepts exactly the grammar

Tokens are read as selectors exactly if the grammar derives the selectors from
them, no two siblings have the same key, and no object nests beyond the limit.

Results:
* `readSiblings_eq_ok_iff`: the tokens between an object's braces.
* `buildRoot_eq_ok_iff_root`: the tokens of a whole pattern.
* `buildObject_buildRoot_eq_ok_iff`: both, with the nesting said object by
  object.
-/

namespace FieldMask

open Grammar

/-! ## Nesting -/

namespace Selector

/-- Among the selectors or below them stands an object, that is the children of a
    branch, at the given nesting relative to them. -/
inductive ObjectAt : List Selector → Nat → Prop
  | child {key : String} {children selectors : List Selector}
      (h : branch key children ∈ selectors) : ObjectAt selectors 1
  | deeper {key : String} {children selectors : List Selector} {r : Nat}
      (h : branch key children ∈ selectors) (inner : ObjectAt children r) :
      ObjectAt selectors (r + 1)

@[simp] theorem nestings_nil : nestings [] = 0 := by
  rw [nestings]

@[simp] theorem nestings_leaf_cons (key : String) (rest : List Selector) :
    nestings (leaf key :: rest) = nestings rest := by
  rw [nestings, nesting, Nat.zero_max]

@[simp] theorem nestings_branch_cons (key : String) (children rest : List Selector) :
    nestings (branch key children :: rest) = max (1 + nestings children) (nestings rest) := by
  rw [nestings, nesting]

theorem nesting_le_nestings {key : String} {children selectors : List Selector}
    (h : branch key children ∈ selectors) : 1 + nestings children ≤ nestings selectors := by
  induction selectors with
  | nil => cases h
  | cons s rest ih =>
    rw [nestings]
    rcases List.mem_cons.1 h with rfl | h
    · rw [nesting]
      exact Nat.le_max_left _ _
    · exact Nat.le_trans (ih h) (Nat.le_max_right _ _)

theorem ObjectAt.cons {rest : List Selector} {r : Nat} (h : ObjectAt rest r) (s : Selector) :
    ObjectAt (s :: rest) r := by
  cases h with
  | child h => exact .child (List.mem_cons_of_mem s h)
  | deeper h inner => exact .deeper (List.mem_cons_of_mem s h) inner

/-- Objects stand at every nesting up to the deepest. -/
theorem objectAt_iff {selectors : List Selector} {r : Nat} :
    ObjectAt selectors r ↔ 1 ≤ r ∧ r ≤ nestings selectors := by
  constructor
  · intro h
    induction h with
    | child h =>
      have := nesting_le_nestings h
      omega
    | deeper h inner ih =>
      have := nesting_le_nestings h
      omega
  · rintro ⟨hpos, hle⟩
    induction selectors using Selector.induct generalizing r with
    | nil =>
      rw [nestings_nil] at hle
      omega
    | leaf key rest ih =>
      rw [nestings_leaf_cons] at hle
      exact (ih hpos hle).cons _
    | branch key children rest ihc ihr =>
      rw [nestings_branch_cons] at hle
      by_cases hr : r ≤ nestings rest
      · exact (ihr hpos hr).cons _
      · by_cases h1 : r = 1
        · rw [h1]
          exact .child List.mem_cons_self
        · obtain ⟨m, rfl⟩ : ∃ m, r = m + 1 := ⟨r - 1, by omega⟩
          exact .deeper List.mem_cons_self (ihc (by omega) (by omega))

/-- That no object lies deeper than the limit is a matter of the deepest one. -/
theorem objectAt_le_iff {limit depth : Nat} {selectors : List Selector} :
    (∀ r, ObjectAt selectors r → depth + r ≤ limit) ↔
      nestings selectors = 0 ∨ depth + nestings selectors ≤ limit := by
  constructor
  · intro h
    rcases Nat.eq_zero_or_pos (nestings selectors) with h0 | hpos
    · exact .inl h0
    · exact .inr (h _ (objectAt_iff.2 ⟨hpos, Nat.le_refl _⟩))
  · intro h r hr
    have := objectAt_iff.1 hr
    omega

/-- Selectors that may stand in an object of the given depth: siblings have distinct
    keys at every level and no object lies deeper than the limit. -/
structure Allowed (limit depth : Nat) (selectors : List Selector) : Prop where
  distinct : Distinct selectors
  depth_le : ∀ r, ObjectAt selectors r → depth + r ≤ limit

theorem allowed_iff {limit depth : Nat} {selectors : List Selector} :
    Allowed limit depth selectors ↔
      Distinct selectors ∧ (nestings selectors = 0 ∨ depth + nestings selectors ≤ limit) := by
  rw [← objectAt_le_iff]
  exact ⟨fun h => ⟨h.distinct, h.depth_le⟩, fun ⟨hd, hn⟩ => ⟨hd, hn⟩⟩

theorem allowed_nil (limit depth : Nat) : Allowed limit depth [] := by
  rw [allowed_iff, Distinct]
  exact ⟨trivial, .inl nestings_nil⟩

theorem allowed_leaf_cons_iff {limit depth : Nat} {key : String} {rest : List Selector} :
    Allowed limit depth (leaf key :: rest) ↔ key ∉ keys rest ∧ Allowed limit depth rest := by
  simp only [allowed_iff, nestings_leaf_cons, Distinct, DistinctBelow, Selector.key, true_and,
    and_assoc]

theorem allowed_branch_cons_iff {limit depth : Nat} {key : String}
    {children rest : List Selector} :
    Allowed limit depth (branch key children :: rest) ↔ key ∉ keys rest ∧
      (depth + 1 ≤ limit ∧ Allowed limit (depth + 1) children) ∧ Allowed limit depth rest := by
  simp only [allowed_iff, nestings_branch_cons, Distinct, DistinctBelow, Selector.key]
  have hmax : (max (1 + nestings children) (nestings rest) = 0 ∨
      depth + max (1 + nestings children) (nestings rest) ≤ limit) ↔
      (depth + 1 ≤ limit ∧ (nestings children = 0 ∨ depth + 1 + nestings children ≤ limit)) ∧
        (nestings rest = 0 ∨ depth + nestings rest ≤ limit) := by omega
  rw [hmax]
  constructor
  · rintro ⟨⟨hk, hdc, hdr⟩, ⟨hd, hnc⟩, hnr⟩
    exact ⟨hk, ⟨hd, hdc, hnc⟩, hdr, hnr⟩
  · rintro ⟨hk, ⟨hd, hdc, hnc⟩, hdr, hnr⟩
    exact ⟨⟨hk, hdc, hdr⟩, ⟨hd, hnc⟩, hnr⟩

end Selector

/-! ## Derivations on tokens -/

namespace Grammar

mutual

theorem Expression.balanced {kinds : List TokenKind} {s : Selector} :
    Expression kinds s → Balanced kinds
  | .leaf _ => balanced_singleton rfl
  | .branch _ siblings =>
    (balanced_cons_iff rfl).2 ((balanced_cons_iff rfl).2 siblings.balanced.braces)

/-- Between an object's braces every object is closed again. -/
theorem Siblings.balanced {kinds : List TokenKind} {selectors : List Selector} :
    Siblings kinds selectors → Balanced kinds
  | .nil => balanced_nil
  | .last expression => expression.balanced
  | .cons expression siblings =>
    (closes_append_iff expression.balanced).2 ((balanced_cons_iff rfl).2 siblings.balanced)

end

theorem siblings_nil_iff {kinds : List TokenKind} : Siblings kinds [] ↔ kinds = [] := by
  constructor
  · intro h
    cases h
    rfl
  · rintro rfl
    exact .nil

theorem eq_nil_of_siblings {selectors : List Selector} (h : Siblings [] selectors) :
    selectors = [] := by
  generalize hk : ([] : List TokenKind) = kinds at h
  cases h with
  | nil => rfl
  | last expression => exact absurd hk.symm expression.ne_nil
  | cons expression siblings => simp at hk

/-- Siblings are an expression, what may follow it, and the other siblings. -/
theorem siblings_cons_iff {tokens : List Token} {s : Selector} {others : List Selector} :
    Siblings (tokens.map Token.kind) (s :: others) ↔ ∃ body tail left,
      tokens = body ++ tail ∧ Expression (body.map Token.kind) s ∧ Follows tail left ∧
      Siblings (left.map Token.kind) others := by
  constructor
  · intro h
    generalize hk : tokens.map Token.kind = kinds at h
    cases h with
    | last expression =>
      subst hk
      exact ⟨tokens, [], [], by simp, expression, .nothing, .nil⟩
    | cons expression siblings =>
      obtain ⟨body, tail, rfl, rfl, ht⟩ := List.map_eq_append_iff.1 hk
      obtain ⟨separator, left, rfl, hs, rfl⟩ := List.map_eq_cons_iff.1 ht
      exact ⟨body, separator :: left, left, rfl, expression, .comma hs, siblings⟩
  · rintro ⟨body, tail, left, rfl, he, hf, hs⟩
    cases hf with
    | nothing =>
      obtain rfl := eq_nil_of_siblings hs
      rw [List.append_nil]
      exact .last he
    | comma h =>
      rw [List.map_append, List.map_cons, h]
      exact .cons he hs

theorem expression_leaf_iff {body : List Token} {key : String} :
    Expression (body.map Token.kind) (.leaf key) ↔
      ∃ first, body = [first] ∧ first.kind = .text key := by
  constructor
  · intro h
    generalize hk : body.map Token.kind = kinds at h
    cases h
    obtain ⟨first, rest, rfl, hf, hr⟩ := List.map_eq_cons_iff.1 hk
    obtain rfl := List.map_eq_nil_iff.1 hr
    exact ⟨first, rfl, hf⟩
  · rintro ⟨first, rfl, hf⟩
    rw [List.map_singleton, hf]
    exact .leaf key

theorem expression_branch_iff {body : List Token} {key : String} {children : List Selector} :
    Expression (body.map Token.kind) (.branch key children) ↔
      ∃ first colon opening inner closing,
        body = first :: colon :: opening :: (inner ++ [closing]) ∧
        BranchHead key first colon opening ∧ closing.kind = .closeBrace ∧
        Siblings (inner.map Token.kind) children := by
  constructor
  · intro h
    generalize hk : body.map Token.kind = kinds at h
    cases h with
    | branch _ siblings =>
      obtain ⟨front, last, rfl, hfront, hlast⟩ := List.map_eq_append_iff.1 hk
      obtain ⟨first, front, rfl, hf, hfront⟩ := List.map_eq_cons_iff.1 hfront
      obtain ⟨colon, front, rfl, hc, hfront⟩ := List.map_eq_cons_iff.1 hfront
      obtain ⟨opening, inner, rfl, ho, rfl⟩ := List.map_eq_cons_iff.1 hfront
      obtain ⟨closing, none, rfl, hl, hnone⟩ := List.map_eq_cons_iff.1 hlast
      obtain rfl := List.map_eq_nil_iff.1 hnone
      exact ⟨first, colon, opening, inner, closing, rfl, ⟨hf, hc, ho⟩, hl, siblings⟩
  · rintro ⟨first, colon, opening, inner, closing, rfl, hh, hc, hs⟩
    simp only [List.map_cons, List.map_append, List.map_nil, hh.key_eq, hh.colon_eq,
      hh.brace_eq, hc]
    exact .branch key hs

/-- A root is an object. -/
theorem root_iff {tokens : List Token} {selectors : List Selector} :
    Root (tokens.map Token.kind) selectors ↔ ∃ opening inner closing,
      tokens = opening :: inner ++ [closing] ∧ opening.kind = .openBrace ∧
      closing.kind = .closeBrace ∧ Siblings (inner.map Token.kind) selectors := by
  constructor
  · rintro ⟨kinds, hk, hs⟩
    obtain ⟨front, back, rfl, hfront, hback⟩ := List.map_eq_append_iff.1 hk
    obtain ⟨opening, inner, rfl, ho, rfl⟩ := List.map_eq_cons_iff.1 hfront
    obtain ⟨closing, none, rfl, hc, hnone⟩ := List.map_eq_cons_iff.1 hback
    obtain rfl := List.map_eq_nil_iff.1 hnone
    exact ⟨opening, inner, closing, rfl, ho, hc, hs⟩
  · rintro ⟨opening, inner, closing, rfl, ho, hc, hs⟩
    exact ⟨inner.map Token.kind, by simp [ho, hc], hs⟩

end Grammar

/-! ## Reading and deriving -/

section Reading

variable {limit depth : Nat}

theorem reads_leaf_iff {key : String} {tokens left : List Token} :
    Reads limit depth tokens (.ok (.leaf key, left)) ↔ ∃ body tail,
      tokens = body ++ tail ∧ Expression (body.map Token.kind) (.leaf key) ∧ Follows tail left := by
  constructor
  · intro h
    cases h with
    | leaf hk hf => exact ⟨[_], _, rfl, expression_leaf_iff.2 ⟨_, rfl, hk⟩, hf⟩
  · rintro ⟨body, tail, rfl, he, hf⟩
    obtain ⟨first, rfl, hk⟩ := expression_leaf_iff.1 he
    exact .leaf hk hf

/-- A branch is read where it is derived, if its children are read from the tokens
    between its braces. -/
theorem reads_branch_iff {key : String} {children : List Selector} {tokens left : List Token}
    (ih : ∀ {inner : List Token}, readSiblings limit (depth + 1) [] inner = .ok children ↔
      Siblings (inner.map Token.kind) children ∧ Selector.Allowed limit (depth + 1) children) :
    Reads limit depth tokens (.ok (.branch key children, left)) ↔
      (depth + 1 ≤ limit ∧ Selector.Allowed limit (depth + 1) children) ∧ ∃ body tail,
        tokens = body ++ tail ∧ Expression (body.map Token.kind) (.branch key children) ∧
        Follows tail left := by
  constructor
  · intro h
    cases h with
    | branch hh hd he hc hf =>
      obtain ⟨hs, ha⟩ := ih.1 hc
      have hx := expression_branch_iff.2 ⟨_, _, _, _, _, rfl, hh, he.brace_eq, hs⟩
      exact ⟨⟨hd, ha⟩, _, _, by simp, hx, hf⟩
  · rintro ⟨⟨hd, ha⟩, body, tail, rfl, hx, hf⟩
    obtain ⟨first, colon, opening, inner, closing, rfl, hh, hb, hs⟩ := expression_branch_iff.1 hx
    have hread : Reads limit depth (first :: colon :: opening :: (inner ++ closing :: tail)) _ :=
      .branch hh hd ⟨hs.balanced, hb⟩ (ih.2 ⟨hs, ha⟩) hf
    simpa using hread

/-- The first key and the others are new, and differ from each other. -/
theorem fresh_cons_iff {s : Selector} {others : List Selector} {seen : List String} :
    (∀ key ∈ Selector.keys (s :: others), key ∉ seen) ∧ s.key ∉ Selector.keys others ↔
      s.key ∉ seen ∧ ∀ key ∈ Selector.keys others, key ∉ s.key :: seen := by
  constructor
  · rintro ⟨hseen, hne⟩
    refine ⟨hseen s.key List.mem_cons_self, fun key hk hmem => ?_⟩
    rcases List.mem_cons.1 hmem with rfl | hmem
    · exact hne hk
    · exact hseen key (List.mem_cons_of_mem _ hk) hmem
  · rintro ⟨hs, hothers⟩
    refine ⟨fun key hk hmem => ?_, fun hmem => hothers _ hmem List.mem_cons_self⟩
    rcases List.mem_cons.1 hk with rfl | hk
    · exact hs hmem
    · exact hothers key hk (List.mem_cons_of_mem _ hmem)

/-- Siblings are read exactly where they are derived, allowed, and none has a key
    that was seen. -/
theorem readSiblings_eq_ok_iff {seen : List String} {tokens : List Token}
    {selectors : List Selector} : readSiblings limit depth seen tokens = .ok selectors ↔
      (Siblings (tokens.map Token.kind) selectors ∧ Selector.Allowed limit depth selectors) ∧
        ∀ key ∈ Selector.keys selectors, key ∉ seen := by
  induction selectors using Selector.induct generalizing depth seen tokens with
  | nil =>
    rw [readSiblings_eq_ok_nil_iff, siblings_nil_iff, List.map_eq_nil_iff]
    simp [Selector.allowed_nil, Selector.keys]
  | leaf key rest ih =>
    rw [readSiblings_eq_ok_cons_iff, siblings_cons_iff, Selector.allowed_leaf_cons_iff]
    constructor
    · rintro ⟨left, hr, hs, ho⟩
      obtain ⟨⟨hsib, ha⟩, hothers⟩ := ih.1 ho
      obtain ⟨body, tail, rfl, he, hf⟩ := reads_leaf_iff.1 hr
      obtain ⟨hseen, hne⟩ := fresh_cons_iff.2 ⟨hs, hothers⟩
      exact ⟨⟨⟨body, tail, left, rfl, he, hf, hsib⟩, hne, ha⟩, hseen⟩
    · rintro ⟨⟨⟨body, tail, left, rfl, he, hf, hsib⟩, hne, ha⟩, hseen⟩
      obtain ⟨hs, hothers⟩ := fresh_cons_iff.1 ⟨hseen, hne⟩
      exact ⟨left, reads_leaf_iff.2 ⟨body, tail, rfl, he, hf⟩, hs, ih.2 ⟨⟨hsib, ha⟩, hothers⟩⟩
  | branch key children rest ihc ihr =>
    have hchildren : ∀ {inner : List Token},
        readSiblings limit (depth + 1) [] inner = .ok children ↔
          Siblings (inner.map Token.kind) children ∧
            Selector.Allowed limit (depth + 1) children := by
      intro inner
      simp [ihc]
    rw [readSiblings_eq_ok_cons_iff, siblings_cons_iff, Selector.allowed_branch_cons_iff]
    constructor
    · rintro ⟨left, hr, hs, ho⟩
      obtain ⟨⟨hsib, ha⟩, hothers⟩ := ihr.1 ho
      obtain ⟨hinner, body, tail, rfl, he, hf⟩ := (reads_branch_iff hchildren).1 hr
      obtain ⟨hseen, hne⟩ := fresh_cons_iff.2 ⟨hs, hothers⟩
      exact ⟨⟨⟨body, tail, left, rfl, he, hf, hsib⟩, hne, hinner, ha⟩, hseen⟩
    · rintro ⟨⟨⟨body, tail, left, rfl, he, hf, hsib⟩, hne, hinner, ha⟩, hseen⟩
      obtain ⟨hs, hothers⟩ := fresh_cons_iff.1 ⟨hseen, hne⟩
      exact ⟨left, (reads_branch_iff hchildren).2 ⟨hinner, body, tail, rfl, he, hf⟩, hs,
        ihr.2 ⟨⟨hsib, ha⟩, hothers⟩⟩

end Reading

/-! ## Objects and roots -/

section Root

variable {limit : Nat} {tokens : List Token} {selectors : List Selector}

theorem buildObject_eq_ok_iff {depth : Nat} : buildObject limit depth tokens = .ok selectors ↔
    Siblings (tokens.map Token.kind) selectors ∧ Selector.Allowed limit depth selectors := by
  rw [buildObject, readSiblings_eq_ok_iff]
  simp

theorem buildRoot_eq_ok_iff : buildRoot limit tokens = .ok selectors ↔
    ∃ opening inner closing, tokens = opening :: inner ++ [closing] ∧
      opening.kind = .openBrace ∧ closing.kind = .closeBrace ∧
      buildObject limit 1 inner = .ok selectors := by
  rw [buildRoot_eq_iff]
  constructor
  · intro h
    cases h with
    | inside ho he h => exact ⟨_, _, _, rfl, ho, he.brace_eq, h⟩
  · rintro ⟨opening, inner, closing, rfl, ho, hc, h⟩
    have hi := (buildObject_eq_ok_iff.1 h).1.balanced
    exact .inside ho ⟨hi, hc⟩ h

/-- A pattern is read as the root selectors that the grammar derives, if they are allowed. -/
theorem buildRoot_eq_ok_iff_root : buildRoot limit tokens = .ok selectors ↔
    Root (tokens.map Token.kind) selectors ∧ Selector.Allowed limit 1 selectors := by
  rw [buildRoot_eq_ok_iff]
  constructor
  · rintro ⟨opening, inner, closing, rfl, ho, hc, h⟩
    obtain ⟨hs, ha⟩ := buildObject_eq_ok_iff.1 h
    exact ⟨root_iff.2 ⟨opening, inner, closing, rfl, ho, hc, hs⟩, ha⟩
  · rintro ⟨hr, ha⟩
    obtain ⟨opening, inner, closing, rfl, ho, hc, hs⟩ := root_iff.1 hr
    exact ⟨opening, inner, closing, rfl, ho, hc, buildObject_eq_ok_iff.2 ⟨hs, ha⟩⟩

end Root

/-- The builder accepts exactly its grammar, where words suffice to count the depths: between
    braces the sibling lists with distinct keys at every level and no object beyond the limit,
    and as a whole pattern such a list between two braces. -/
theorem buildObject_buildRoot_eq_ok_iff (limit depth : Nat) (tokens : List Token)
    (selectors : List Selector) :
    (Word.Suffice limit depth tokens → (Word.buildObject limit depth tokens = .ok selectors ↔
      Siblings (tokens.map Token.kind) selectors ∧ Selector.Distinct selectors ∧
        ∀ r, Selector.ObjectAt selectors r → depth + r ≤ limit)) ∧
    (Word.Suffice limit 1 tokens → (buildRoot limit tokens = .ok selectors ↔
      ∃ opening inner closing, tokens = opening :: inner ++ [closing] ∧
        opening.kind = .openBrace ∧ closing.kind = .closeBrace ∧
        Word.buildObject limit 1 inner = .ok selectors)) := by
  constructor
  · intro hwords
    rw [Word.buildObject_eq hwords, buildObject_eq_ok_iff]
    constructor
    · rintro ⟨hs, ha⟩
      exact ⟨hs, ha.distinct, ha.depth_le⟩
    · rintro ⟨hs, hd, hn⟩
      exact ⟨hs, hd, hn⟩
  · intro hwords
    have hinner {opening closing : Token} {inner : List Token}
        (htokens : tokens = opening :: inner ++ [closing]) :
        Word.buildObject limit 1 inner = buildObject limit 1 inner := by
      refine Word.buildObject_eq (hwords.of_sublist ?_)
      rw [htokens]
      exact (List.sublist_append_left inner [closing]).cons opening
    rw [buildRoot_eq_ok_iff]
    constructor
    · rintro ⟨opening, inner, closing, htokens, ho, hc, h⟩
      exact ⟨opening, inner, closing, htokens, ho, hc, (hinner htokens).trans h⟩
    · rintro ⟨opening, inner, closing, htokens, ho, hc, h⟩
      exact ⟨opening, inner, closing, htokens, ho, hc, (hinner htokens).symm.trans h⟩

theorem buildObject_buildRoot_eq_ok_iff_nested :
    let inner : List Token := [⟨.text "a", ⟨1, 1⟩⟩, ⟨.colon, ⟨2, 1⟩⟩, ⟨.openBrace, ⟨3, 1⟩⟩,
      ⟨.text "b", ⟨4, 1⟩⟩, ⟨.closeBrace, ⟨5, 1⟩⟩]
    let tokens : List Token := ⟨.openBrace, ⟨0, 1⟩⟩ :: inner ++ [⟨.closeBrace, ⟨6, 1⟩⟩]
    Word.Suffice 2 1 tokens ∧ Word.Suffice 1 1 inner ∧
    Word.buildObject 2 1 inner = .ok [.branch "a" [.leaf "b"]] ∧
    buildRoot 2 tokens = .ok [.branch "a" [.leaf "b"]] ∧
    Word.buildObject 1 1 inner ≠ .ok [.branch "a" [.leaf "b"]] := by
  intro inner tokens
  have hwords (limit : Nat) (h : limit < 3) (tokens : List Token) : Word.Suffice limit 1 tokens :=
    .inl ⟨Word.lt_size (by omega), Word.lt_size (by decide)⟩
  have hs : Siblings (inner.map Token.kind) [.branch "a" [.leaf "b"]] :=
    .last (.branch "a" (.last (.leaf "b")))
  have hd : Selector.Distinct [.branch "a" [.leaf "b"]] := by decide
  have hn : ∀ r, Selector.ObjectAt [.branch "a" [.leaf "b"]] r → 1 + r ≤ 2 :=
    Selector.objectAt_le_iff.2 (by decide)
  obtain ⟨hobject, -⟩ := buildObject_buildRoot_eq_ok_iff 2 1 inner [.branch "a" [.leaf "b"]]
  have hinner := (hobject (hwords 2 (by decide) inner)).2 ⟨hs, hd, hn⟩
  obtain ⟨-, hroot⟩ := buildObject_buildRoot_eq_ok_iff 2 1 tokens [.branch "a" [.leaf "b"]]
  obtain ⟨hshallow, -⟩ := buildObject_buildRoot_eq_ok_iff 1 1 inner [.branch "a" [.leaf "b"]]
  refine ⟨hwords 2 (by decide) tokens, hwords 1 (by decide) inner, hinner,
    (hroot (hwords 2 (by decide) tokens)).2 ⟨_, inner, _, rfl, rfl, rfl, hinner⟩, fun h => ?_⟩
  obtain ⟨-, -, hle⟩ := (hshallow (hwords 1 (by decide) inner)).1 h
  exact absurd (hle 1 (.child List.mem_cons_self)) (by decide)

end FieldMask
