import FieldMask.Pattern.Expression
import FieldMask.Proofs.Basic
import FieldMask.Proofs.Pattern.Balance

/-!
# Reading one expression

Everything that can come of reading the expression at the head of some tokens,
as a relation between the tokens and the outcome: the selector together with
the tokens left behind it, or one of the faults. Facts about the reader are
proved by cases on this relation, and facts about a whole pattern by cases on a
like relation for the root object.

Results:
* `readFirst_eq_iff`: the relation holds of exactly what the reader does.
* `readSiblings_of_ok`, `readSiblings_of_error`: reading siblings is reading
  one expression after another.
* `readSiblings_induct`: induction on reading siblings and the objects inside them.
* `buildRoot_eq_iff`: what becomes of a whole pattern.
-/

namespace FieldMask

/-- The expression at the head of some tokens: its selector, and the tokens left
    behind it and its comma. -/
def readFirst (limit depth : Nat) (first : Token) (rest : List Token) :
    Except PatternError (Selector × List Token) :=
  (readExpression limit depth first rest).map fun reading =>
    (reading.selector, rest.drop reading.more)

/-- Behind an expression there is nothing, or a comma and what is left. -/
inductive Follows : List Token → List Token → Prop
  | nothing : Follows [] []
  | comma {separator : Token} {left : List Token} (h : separator.kind = .comma) :
      Follows (separator :: left) left

theorem Follows.length_le {tail left : List Token} (h : Follows tail left) :
    left.length ≤ tail.length := by
  cases h with
  | nothing => exact Nat.le_refl _
  | comma h => exact Nat.le_succ _

theorem Follows.subset {tail left : List Token} (h : Follows tail left) : left ⊆ tail := by
  cases h with
  | nothing => exact List.Subset.refl []
  | comma h => exact List.subset_cons_self _ left

/-- The tokens with which a branch starts: a key, a colon and an opening brace. -/
structure BranchHead (key : String) (first colon opening : Token) : Prop where
  key_eq : first.kind = .text key
  colon_eq : colon.kind = .colon
  brace_eq : opening.kind = .openBrace

theorem BranchHead.map_kind {key : String} {first colon opening : Token}
    (hh : BranchHead key first colon opening) :
    [first, colon, opening].map Token.kind = [.text key, .colon, .openBrace] := by
  simp [hh.key_eq, hh.colon_eq, hh.brace_eq]

/-- The tokens of an object behind its opening brace, up to the brace that closes it. -/
structure Enclosed (inner : List Token) (closing : Token) : Prop where
  balanced : Balanced (inner.map Token.kind)
  brace_eq : closing.kind = .closeBrace

/-- What comes of reading the expression at the head of some tokens. -/
inductive Reads (limit depth : Nat) :
    List Token → Except PatternError (Selector × List Token) → Prop
  | leaf {key : String} {first : Token} {tail left : List Token} (hk : first.kind = .text key)
      (hf : Follows tail left) : Reads limit depth (first :: tail) (.ok (.leaf key, left))
  | branch {key : String} {first colon opening closing : Token} {inner tail left : List Token}
      {children : List Selector} (hh : BranchHead key first colon opening)
      (hd : depth + 1 ≤ limit) (he : Enclosed inner closing)
      (hc : readSiblings limit (depth + 1) [] inner = .ok children) (hf : Follows tail left) :
      Reads limit depth (first :: colon :: opening :: (inner ++ closing :: tail))
        (.ok (.branch key children, left))
  | noKey {first : Token} {rest : List Token} (h : ∀ key, first.kind ≠ .text key) :
      Reads limit depth (first :: rest) (.error ((Fault.unexpectedToken .key).spanning first.span))
  | noSeparator {key : String} {first separator : Token} {rest : List Token}
      (hk : first.kind = .text key) (h : separator.kind ≠ .comma) (h' : separator.kind ≠ .colon) :
      Reads limit depth (first :: separator :: rest)
        (.error ((Fault.unexpectedToken .separator).spanning separator.span))
  | noObject {key : String} {first colon : Token} {rest : List Token}
      (hk : first.kind = .text key) (hc : colon.kind = .colon)
      (h : ∀ next ∈ rest.head?, next.kind ≠ .openBrace) :
      Reads limit depth (first :: colon :: rest) (.error (Fault.objectMissing.spanning colon.span))
  | tooDeep {key : String} {first colon opening : Token} {rest : List Token}
      (hh : BranchHead key first colon opening) (hd : limit < depth + 1) :
      Reads limit depth (first :: colon :: opening :: rest)
        (.error (Fault.nestedTooDeep.spanning opening.span))
  | unclosed {key : String} {first colon opening : Token} {rest : List Token}
      (hh : BranchHead key first colon opening) (hd : depth + 1 ≤ limit)
      (h : closeOffset? 0 rest = none) :
      Reads limit depth (first :: colon :: opening :: rest)
        (.error (Fault.unclosedObject.spanning opening.span))
  | inside {key : String} {first colon opening closing : Token} {inner tail : List Token}
      {error : PatternError} (hh : BranchHead key first colon opening) (hd : depth + 1 ≤ limit)
      (he : Enclosed inner closing)
      (h : readSiblings limit (depth + 1) [] inner = .error error) :
      Reads limit depth (first :: colon :: opening :: (inner ++ closing :: tail)) (.error error)
  | noComma {key : String} {first colon opening closing next : Token} {inner more : List Token}
      {children : List Selector} (hh : BranchHead key first colon opening)
      (hd : depth + 1 ≤ limit) (he : Enclosed inner closing)
      (hc : readSiblings limit (depth + 1) [] inner = .ok children) (h : next.kind ≠ .comma) :
      Reads limit depth (first :: colon :: opening :: (inner ++ closing :: next :: more))
        (.error (Fault.commaMissing.spanning next.span))

/-! ## The builder's own equations -/

section Equations

variable (limit depth : Nat)

theorem readObject_nil (colon : Token) :
    readObject limit depth colon [] = .error (Fault.objectMissing.spanning colon.span) := rfl

theorem readObject_cons (colon opening : Token) (inner : List Token) :
    readObject limit depth colon (opening :: inner) =
      if opening.kind = .openBrace then
        if limit < depth + 1 then .error (Fault.nestedTooDeep.spanning opening.span)
        else match closeOffset? 0 inner with
          | none => .error (Fault.unclosedObject.spanning opening.span)
          | some n => (readSiblings limit (depth + 1) [] (inner.take n)).bind fun children =>
            match inner.drop (n + 1) with
            | [] => .ok ⟨children, n + 2⟩
            | next :: _ =>
              if next.kind = .comma then .ok ⟨children, n + 3⟩
              else .error (Fault.commaMissing.spanning next.span)
      else .error (Fault.objectMissing.spanning colon.span) := by
  rw [readObject, readObjectWith]
  split
  · split
    · rfl
    · cases closeOffset? 0 inner <;> rfl
  · rfl

theorem readExpression_def (first : Token) (rest : List Token) :
    readExpression limit depth first rest =
      match first.kind with
      | .text key =>
        match rest with
        | [] => .ok ⟨.leaf key, 0⟩
        | separator :: after =>
          match separator.kind with
          | .comma => .ok ⟨.leaf key, 1⟩
          | .colon => (readObject limit depth separator after).map fun object =>
              ⟨.branch key object.children, 1 + object.taken⟩
          | _ => .error ((Fault.unexpectedToken .separator).spanning separator.span)
      | _ => .error ((Fault.unexpectedToken .key).spanning first.span) := by
  rw [readExpression, readExpressionWith]
  cases first.kind with
  | text key =>
    cases rest with
    | nil => rfl
    | cons separator after =>
      simp only
      cases separator.kind with
      | colon =>
        show (readObject limit depth separator after).bind _ = _
        cases readObject limit depth separator after <;> rfl
      | openBrace | closeBrace | comma | text => rfl
  | openBrace | closeBrace | comma | colon => rfl

theorem readSiblings_def (seen : List String) (tokens : List Token) :
    readSiblings limit depth seen tokens =
      readSiblingsWith limit (depth + 1) seen tokens fun inner _ =>
        readSiblings limit (depth + 1) [] inner := by
  rw [readSiblings]

end Equations

/-! ## The object after a colon -/

section Object

variable {limit depth : Nat} {colon opening : Token}

theorem readObject_of_not_openBrace {tokens : List Token}
    (h : ∀ next ∈ tokens.head?, next.kind ≠ .openBrace) :
    readObject limit depth colon tokens = .error (Fault.objectMissing.spanning colon.span) := by
  cases tokens with
  | nil => exact readObject_nil limit depth colon
  | cons next rest => rw [readObject_cons, if_neg (h next rfl)]

theorem readObject_of_limit_lt (ho : opening.kind = .openBrace) (hd : limit < depth + 1)
    (rest : List Token) : readObject limit depth colon (opening :: rest) =
      .error (Fault.nestedTooDeep.spanning opening.span) := by
  rw [readObject_cons, if_pos ho, if_pos hd]

theorem readObject_of_unclosed (ho : opening.kind = .openBrace) (hd : depth + 1 ≤ limit)
    {rest : List Token} (h : closeOffset? 0 rest = none) :
    readObject limit depth colon (opening :: rest) =
      .error (Fault.unclosedObject.spanning opening.span) := by
  rw [readObject_cons, if_pos ho, if_neg (by omega), h]

/-- A closed object is read by itself, then what follows it is looked at. -/
theorem readObject_of_enclosed {closing : Token} {inner : List Token}
    (ho : opening.kind = .openBrace) (hd : depth + 1 ≤ limit) (he : Enclosed inner closing)
    (tail : List Token) : readObject limit depth colon (opening :: (inner ++ closing :: tail)) =
      (readSiblings limit (depth + 1) [] inner).bind fun children =>
        match tail with
        | [] => .ok ⟨children, inner.length + 2⟩
        | next :: _ =>
          if next.kind = .comma then .ok ⟨children, inner.length + 3⟩
          else .error (Fault.commaMissing.spanning next.span) := by
  have hdrop : (inner ++ closing :: tail).drop (inner.length + 1) = tail := by simp
  rw [readObject_cons, if_pos ho, if_neg (by omega), closeOffset?_append he.balanced he.brace_eq]
  simp only [List.take_left, hdrop]

end Object

/-! ## One expression -/

section Expression

variable {limit depth : Nat} {key : String} {first : Token}

theorem readFirst_of_not_text (h : ∀ key, first.kind ≠ .text key) (rest : List Token) :
    readFirst limit depth first rest =
      .error ((Fault.unexpectedToken .key).spanning first.span) := by
  rw [readFirst, readExpression_def]
  split
  · next key hk => exact absurd hk (h key)
  · rfl

theorem readFirst_leaf (hk : first.kind = .text key) {tail left : List Token}
    (hf : Follows tail left) : readFirst limit depth first tail = .ok (.leaf key, left) := by
  cases hf with
  | nothing => simp [readFirst, readExpression_def, hk, Except.map]
  | comma h => simp [readFirst, readExpression_def, hk, h, Except.map]

theorem readFirst_of_not_separator {separator : Token} (hk : first.kind = .text key)
    (h : separator.kind ≠ .comma) (h' : separator.kind ≠ .colon) (rest : List Token) :
    readFirst limit depth first (separator :: rest) =
      .error ((Fault.unexpectedToken .separator).spanning separator.span) := by
  rw [readFirst, readExpression_def]
  cases hs : separator.kind <;> simp_all [Except.map]

/-- A key and a colon are followed by an object. -/
theorem readFirst_colon {colon : Token} (hk : first.kind = .text key) (hc : colon.kind = .colon)
    (tokens : List Token) : readFirst limit depth first (colon :: tokens) =
      (readObject limit depth colon tokens).map fun object =>
        (.branch key object.children, tokens.drop object.taken) := by
  rw [readFirst, readExpression_def]
  simp only [hk, hc]
  cases readObject limit depth colon tokens with
  | error error => rfl
  | ok object =>
    have hdrop : (colon :: tokens).drop (1 + object.taken) = tokens.drop object.taken := by
      rw [Nat.add_comm, List.drop_succ_cons]
    simp [Except.map, hdrop]

theorem Reads.eq_readFirst {rest : List Token}
    {outcome : Except PatternError (Selector × List Token)}
    (h : Reads limit depth (first :: rest) outcome) :
    readFirst limit depth first rest = outcome := by
  cases h with
  | leaf hk hf => exact readFirst_leaf hk hf
  | branch hh hd he hc hf =>
    rw [readFirst_colon hh.key_eq hh.colon_eq, readObject_of_enclosed hh.brace_eq hd he, hc]
    cases hf with
    | nothing => simp [Except.bind, Except.map]
    | comma h => simp [Except.bind, Except.map, h]
  | noKey h => exact readFirst_of_not_text h _
  | noSeparator hk h h' => exact readFirst_of_not_separator hk h h' _
  | noObject hk hc h =>
    rw [readFirst_colon hk hc, readObject_of_not_openBrace h]
    rfl
  | tooDeep hh hd =>
    rw [readFirst_colon hh.key_eq hh.colon_eq, readObject_of_limit_lt hh.brace_eq hd]
    rfl
  | unclosed hh hd h =>
    rw [readFirst_colon hh.key_eq hh.colon_eq, readObject_of_unclosed hh.brace_eq hd h]
    rfl
  | inside hh hd he h =>
    rw [readFirst_colon hh.key_eq hh.colon_eq, readObject_of_enclosed hh.brace_eq hd he, h]
    rfl
  | noComma hh hd he hc h =>
    rw [readFirst_colon hh.key_eq hh.colon_eq, readObject_of_enclosed hh.brace_eq hd he, hc]
    simp [Except.bind, Except.map, h]

/-- Behind a closing brace stands nothing, a comma or a token that is none. -/
theorem exists_reads_enclosed {colon opening closing : Token} {inner : List Token}
    (hh : BranchHead key first colon opening) (hd : depth + 1 ≤ limit)
    (he : Enclosed inner closing) (tail : List Token) :
    ∃ outcome, Reads limit depth (first :: colon :: opening :: (inner ++ closing :: tail))
      outcome := by
  cases hr : readSiblings limit (depth + 1) [] inner with
  | error error => exact ⟨_, .inside hh hd he hr⟩
  | ok children =>
    cases tail with
    | nil => exact ⟨_, .branch hh hd he hr .nothing⟩
    | cons next more =>
      by_cases hn : next.kind = .comma
      · exact ⟨_, .branch hh hd he hr (.comma hn)⟩
      · exact ⟨_, .noComma hh hd he hr hn⟩

theorem exists_reads_colon {colon : Token} (hk : first.kind = .text key)
    (hc : colon.kind = .colon) (tokens : List Token) :
    ∃ outcome, Reads limit depth (first :: colon :: tokens) outcome := by
  cases tokens with
  | nil => exact ⟨_, .noObject hk hc (by simp)⟩
  | cons opening rest =>
    by_cases ho : opening.kind = .openBrace
    · have hh : BranchHead key first colon opening := ⟨hk, hc, ho⟩
      rcases Nat.lt_or_ge limit (depth + 1) with hd | hd
      · exact ⟨_, .tooDeep hh hd⟩
      cases hn : closeOffset? 0 rest with
      | none => exact ⟨_, .unclosed hh hd hn⟩
      | some n =>
        obtain ⟨inner, closing, tail, rfl, -, hb, hi⟩ := closeOffset?_eq_some_iff.1 hn
        exact exists_reads_enclosed hh hd ⟨hi, hb⟩ tail
    · exact ⟨_, .noObject hk hc (by simpa using ho)⟩

theorem exists_reads (limit depth : Nat) (first : Token) (rest : List Token) :
    ∃ outcome, Reads limit depth (first :: rest) outcome := by
  by_cases ht : ∃ key, first.kind = .text key
  · obtain ⟨key, hk⟩ := ht
    cases rest with
    | nil => exact ⟨_, .leaf hk .nothing⟩
    | cons separator after =>
      by_cases hm : separator.kind = .comma
      · exact ⟨_, .leaf hk (.comma hm)⟩
      by_cases hc : separator.kind = .colon
      · exact exists_reads_colon hk hc after
      · exact ⟨_, .noSeparator hk hm hc⟩
  · exact ⟨_, .noKey fun key hk => ht ⟨key, hk⟩⟩

/-- The relation says exactly what the reader does. -/
theorem readFirst_eq_iff {rest : List Token}
    {outcome : Except PatternError (Selector × List Token)} :
    readFirst limit depth first rest = outcome ↔ Reads limit depth (first :: rest) outcome := by
  constructor
  · rintro rfl
    obtain ⟨outcome, h⟩ := exists_reads limit depth first rest
    rwa [h.eq_readFirst]
  · exact Reads.eq_readFirst

/-- The tokens left behind an expression are fewer. -/
theorem Reads.length_lt {tokens left : List Token} {s : Selector}
    (h : Reads limit depth tokens (.ok (s, left))) : left.length < tokens.length := by
  cases h with
  | leaf hk hf =>
    have := hf.length_le
    rw [List.length_cons]
    omega
  | branch hh hd he hc hf =>
    have := hf.length_le
    simp only [List.length_cons, List.length_append]
    omega

theorem Reads.left_subset {tokens left : List Token} {s : Selector}
    (h : Reads limit depth tokens (.ok (s, left))) : left ⊆ tokens := by
  cases h with
  | leaf hk hf =>
    intro token ht
    exact List.mem_cons_of_mem _ (hf.subset ht)
  | branch hh hd he hc hf =>
    intro token ht
    simp [hf.subset ht]

end Expression

/-! ## Siblings -/

section Siblings

variable {limit depth : Nat} {seen : List String}

@[simp] theorem readSiblings_nil : readSiblings limit depth seen [] = .ok [] := by
  rw [readSiblings_def, readSiblingsWith]
  rfl

theorem readSiblings_cons (first : Token) (rest : List Token) :
    readSiblings limit depth seen (first :: rest) =
      (readFirst limit depth first rest).bind fun (s, left) =>
        if s.key ∈ seen then .error (Fault.repeatedKey.spanning first.span)
        else (readSiblings limit depth (s.key :: seen) left).map (s :: ·) := by
  rw [readSiblings_def, readSiblingsWith, readFirst]
  show Except.bind (readExpression limit depth first rest) _ = _
  cases readExpression limit depth first rest with
  | error error => rfl
  | ok reading =>
    obtain ⟨s, more⟩ := reading
    show (if _ then _ else _) = if _ then _ else (readSiblings limit depth _ _).map _
    rw [readSiblings_def]
    rfl

section Cons

variable {first : Token} {rest left : List Token} {s : Selector}

theorem readSiblings_of_error {error : PatternError}
    (h : Reads limit depth (first :: rest) (.error error)) :
    readSiblings limit depth seen (first :: rest) = .error error := by
  rw [readSiblings_cons, readFirst_eq_iff.2 h]
  rfl

theorem readSiblings_of_repeated (h : Reads limit depth (first :: rest) (.ok (s, left)))
    (hs : s.key ∈ seen) : readSiblings limit depth seen (first :: rest) =
      .error (Fault.repeatedKey.spanning first.span) := by
  rw [readSiblings_cons, readFirst_eq_iff.2 h]
  exact if_pos hs

theorem readSiblings_of_ok (h : Reads limit depth (first :: rest) (.ok (s, left)))
    (hs : s.key ∉ seen) : readSiblings limit depth seen (first :: rest) =
      (readSiblings limit depth (s.key :: seen) left).map (s :: ·) := by
  rw [readSiblings_cons, readFirst_eq_iff.2 h]
  exact if_neg hs

end Cons

/-- Reading siblings fails in the first expression, or at its key, or goes on behind it. -/
theorem readSiblings_cases (limit depth : Nat) (seen : List String) (first : Token)
    (rest : List Token) :
    (∃ error, Reads limit depth (first :: rest) (.error error) ∧
      readSiblings limit depth seen (first :: rest) = .error error) ∨
    (∃ s left, Reads limit depth (first :: rest) (.ok (s, left)) ∧ s.key ∈ seen ∧
      readSiblings limit depth seen (first :: rest) =
        .error (Fault.repeatedKey.spanning first.span)) ∨
    (∃ s left, Reads limit depth (first :: rest) (.ok (s, left)) ∧ s.key ∉ seen ∧
      readSiblings limit depth seen (first :: rest) =
        (readSiblings limit depth (s.key :: seen) left).map (s :: ·)) := by
  obtain ⟨outcome, hr⟩ := exists_reads limit depth first rest
  cases outcome with
  | error error => exact .inl ⟨error, hr, readSiblings_of_error hr⟩
  | ok result =>
    obtain ⟨s, left⟩ := result
    by_cases hs : s.key ∈ seen
    · exact .inr (.inl ⟨s, left, hr, hs, readSiblings_of_repeated hr hs⟩)
    · exact .inr (.inr ⟨s, left, hr, hs, readSiblings_of_ok hr hs⟩)

/-- What holds of siblings, from what holds of the objects inside the first of them and of
    the siblings left behind it. -/
@[elab_as_elim]
theorem readSiblings_induct (limit : Nat) {motive : Nat → List String → List Token → Prop}
    (nil : ∀ depth seen, motive depth seen [])
    (fails : ∀ depth seen first rest error, Reads limit depth (first :: rest) (.error error) →
      (∀ inner : List Token, inner.length < (first :: rest).length → motive (depth + 1) [] inner) →
      motive depth seen (first :: rest))
    (repeats : ∀ depth seen first rest s left,
      Reads limit depth (first :: rest) (.ok (s, left)) → s.key ∈ seen →
      (∀ inner : List Token, inner.length < (first :: rest).length → motive (depth + 1) [] inner) →
      motive depth seen (first :: rest))
    (goes : ∀ depth seen first rest s left,
      Reads limit depth (first :: rest) (.ok (s, left)) → s.key ∉ seen →
      (∀ inner : List Token, inner.length < (first :: rest).length → motive (depth + 1) [] inner) →
      motive depth (s.key :: seen) left → motive depth seen (first :: rest))
    (depth : Nat) (seen : List String) (tokens : List Token) : motive depth seen tokens := by
  induction hlen : tokens.length using Nat.strongRecOn generalizing tokens depth seen with
  | ind n ih =>
    subst hlen
    cases tokens with
    | nil => exact nil depth seen
    | cons first rest =>
      have hinner : ∀ inner : List Token, inner.length < (first :: rest).length →
          motive (depth + 1) [] inner := fun inner hlt => ih _ hlt _ _ inner rfl
      obtain ⟨outcome, hr⟩ := exists_reads limit depth first rest
      cases outcome with
      | error error => exact fails _ _ _ _ error hr hinner
      | ok result =>
        obtain ⟨s, left⟩ := result
        have hleft := ih _ hr.length_lt depth (s.key :: seen) left rfl
        by_cases hs : s.key ∈ seen
        · exact repeats _ _ _ _ s left hr hs hinner
        · exact goes _ _ _ _ s left hr hs hinner hleft

theorem readSiblings_eq_ok_nil_iff {tokens : List Token} :
    readSiblings limit depth seen tokens = .ok [] ↔ tokens = [] := by
  constructor
  · intro h
    cases tokens with
    | nil => rfl
    | cons first rest =>
      obtain ⟨error, -, hr⟩ | ⟨s, left, -, -, hr⟩ | ⟨s, left, -, -, hr⟩ :=
        readSiblings_cases limit depth seen first rest
      · rw [hr] at h
        contradiction
      · rw [hr] at h
        contradiction
      · rw [hr, map_eq_ok_iff] at h
        obtain ⟨others, -, h⟩ := h
        contradiction
  · rintro rfl
    exact readSiblings_nil

/-- Siblings are read by reading the first one and then the others. -/
theorem readSiblings_eq_ok_cons_iff {tokens : List Token} {s : Selector} {others : List Selector} :
    readSiblings limit depth seen tokens = .ok (s :: others) ↔ ∃ left,
      Reads limit depth tokens (.ok (s, left)) ∧ s.key ∉ seen ∧
      readSiblings limit depth (s.key :: seen) left = .ok others := by
  constructor
  · intro h
    cases tokens with
    | nil => simp at h
    | cons first rest =>
      obtain ⟨error, -, hr⟩ | ⟨t, left, -, -, hr⟩ | ⟨t, left, ht, hn, hr⟩ :=
        readSiblings_cases limit depth seen first rest
      · rw [hr] at h
        contradiction
      · rw [hr] at h
        contradiction
      · rw [hr, map_eq_ok_iff] at h
        obtain ⟨more, hm, h⟩ := h
        obtain ⟨rfl, rfl⟩ := List.cons.inj h
        exact ⟨left, ht, hn, hm⟩
  · rintro ⟨left, hr, hs, ho⟩
    cases tokens with
    | nil => cases hr
    | cons first rest =>
      rw [readSiblings_of_ok hr hs, ho]
      rfl

end Siblings

/-! ## A whole pattern -/

/-- What comes of building the selectors of a whole pattern. -/
inductive Builds (limit : Nat) : List Token → Except PatternError (List Selector) → Prop
  | empty : Builds limit [] (.error (Fault.emptyPattern.spanning ⟨0, 0⟩))
  | unopened {opening : Token} {rest : List Token} (h : opening.kind ≠ .openBrace) :
      Builds limit (opening :: rest)
        (.error ((Fault.unexpectedToken .openBrace).spanning opening.span))
  | unclosed {opening : Token} {rest : List Token} (ho : opening.kind = .openBrace)
      (h : closeOffset? 0 rest = none) :
      Builds limit (opening :: rest) (.error (Fault.unclosedRoot.spanning opening.span))
  | trailing {opening closing next last : Token} {inner others : List Token}
      (ho : opening.kind = .openBrace) (he : Enclosed inner closing)
      (hl : (next :: others).getLast? = some last) :
      Builds limit (opening :: (inner ++ closing :: next :: others))
        (.error (Fault.trailingText.spanning (next.span.through last.span)))
  | inside {opening closing : Token} {inner : List Token}
      {outcome : Except PatternError (List Selector)} (ho : opening.kind = .openBrace)
      (he : Enclosed inner closing) (h : buildObject limit 1 inner = outcome) :
      Builds limit (opening :: (inner ++ [closing])) outcome

/-- The root object, then what stands behind it. -/
theorem cons_append_closing (opening closing : Token) (inner after : List Token) :
    opening :: (inner ++ closing :: after) = opening :: (inner ++ [closing]) ++ after := by
  simp

section Root

variable {limit : Nat} {tokens : List Token} {outcome : Except PatternError (List Selector)}

theorem Builds.eq_buildRoot (h : Builds limit tokens outcome) :
    buildRoot limit tokens = outcome := by
  cases h with
  | empty => rfl
  | unopened h => rw [buildRoot, if_neg h]
  | unclosed ho h => rw [buildRoot, if_pos ho, h]
  | trailing ho he hl =>
    rw [List.getLast?_eq_some_getLast (List.cons_ne_nil _ _)] at hl
    obtain rfl := Option.some.inj hl
    rw [buildRoot, if_pos ho, closeOffset?_append he.balanced he.brace_eq]
    simp
  | inside ho he h =>
    rw [buildRoot, if_pos ho, closeOffset?_append he.balanced he.brace_eq]
    simpa using h

theorem exists_builds (limit : Nat) (tokens : List Token) :
    ∃ outcome, Builds limit tokens outcome := by
  cases tokens with
  | nil => exact ⟨_, .empty⟩
  | cons opening rest =>
    by_cases ho : opening.kind = .openBrace
    · cases hn : closeOffset? 0 rest with
      | none => exact ⟨_, .unclosed ho hn⟩
      | some n =>
        obtain ⟨inner, closing, after, rfl, -, hb, hi⟩ := closeOffset?_eq_some_iff.1 hn
        cases after with
        | nil => exact ⟨_, .inside ho ⟨hi, hb⟩ rfl⟩
        | cons next others =>
          exact ⟨_, .trailing ho ⟨hi, hb⟩ (List.getLast?_eq_some_getLast (List.cons_ne_nil _ _))⟩
    · exact ⟨_, .unopened ho⟩

/-- The relation says exactly what the builder does. -/
theorem buildRoot_eq_iff : buildRoot limit tokens = outcome ↔ Builds limit tokens outcome := by
  constructor
  · rintro rfl
    obtain ⟨outcome, h⟩ := exists_builds limit tokens
    rwa [h.eq_buildRoot]
  · exact Builds.eq_buildRoot

end Root

end FieldMask
