import FieldMask.Proofs.Pattern.Location

/-!
# Where tokens stand

The builder goes by the kinds of tokens. Their spans it only passes on into an
error. So tokens of the same kinds that stand elsewhere, as those of a pattern
with other blanks and other spellings of its keys do, come to the same
selectors, or to the same error about the same tokens.

Two lists of tokens of the same kinds are both obtained from one list, in which
each token stands at its index, by moving every token to its place. What is said
of one list and all ways of moving it therefore holds of the two.

Results:
* `readSiblings_relocate`: moving the tokens of siblings moves their error.
* `exists_verdict`: what a whole pattern comes to, wherever its tokens stand.
* `Compiler.compile_same_tokens`: patterns with the same tokens compile to the
  same selectors, or are refused for the same tokens.
-/

namespace FieldMask

/-! ## Moving tokens -/

/-- The token at another place. -/
def Token.relocate (place : Span → Span) (token : Token) : Token :=
  ⟨token.kind, place token.span⟩

/-- The error at another place. -/
def PatternError.relocate (place : Span → Span) (error : PatternError) : PatternError :=
  ⟨error.fault, place error.span, error.pattern⟩

/-- The outcome of reading an expression, with the tokens that are left and the error at
    another place. -/
def relocateOutcome (place : Span → Span) :
    Except PatternError (Selector × List Token) → Except PatternError (Selector × List Token)
  | .ok (s, left) => .ok (s, left.map (Token.relocate place))
  | .error error => .error (error.relocate place)

section Relocate

variable {place : Span → Span}

@[simp] theorem Token.kind_relocate (token : Token) : (token.relocate place).kind = token.kind :=
  rfl

@[simp] theorem map_kind_relocate (tokens : List Token) :
    (tokens.map (Token.relocate place)).map Token.kind = tokens.map Token.kind := by
  rw [List.map_map]
  rfl

theorem closeOffset?_relocate {outer : Nat} {tokens : List Token}
    (h : closeOffset? outer tokens = none) :
    closeOffset? outer (tokens.map (Token.relocate place)) = none := by
  rw [closeOffset?_eq_none_iff] at h ⊢
  rwa [map_kind_relocate]

theorem Follows.relocate {tail left : List Token} (h : Follows tail left) :
    Follows (tail.map (Token.relocate place)) (left.map (Token.relocate place)) := by
  cases h with
  | nothing => exact .nothing
  | comma h => exact .comma h

theorem BranchHead.relocate {key : String} {first colon opening : Token}
    (hh : BranchHead key first colon opening) :
    BranchHead key (first.relocate place) (colon.relocate place) (opening.relocate place) :=
  ⟨hh.key_eq, hh.colon_eq, hh.brace_eq⟩

theorem Enclosed.relocate {inner : List Token} {closing : Token} (he : Enclosed inner closing) :
    Enclosed (inner.map (Token.relocate place)) (closing.relocate place) := by
  refine ⟨?_, he.brace_eq⟩
  rw [map_kind_relocate]
  exact he.balanced

end Relocate

/-! ## Reading moved tokens -/

section Reading

variable (place : Span → Span)

theorem map_relocate_object (first colon opening closing : Token) (inner tail : List Token) :
    (first :: colon :: opening :: (inner ++ closing :: tail)).map (Token.relocate place) =
      first.relocate place :: colon.relocate place :: opening.relocate place ::
        (inner.map (Token.relocate place) ++
          closing.relocate place :: tail.map (Token.relocate place)) := by
  simp

/-- One expression: if the objects inside it are read alike, so is all of it. -/
theorem Reads.relocate {limit depth : Nat} {tokens : List Token}
    {outcome : Except PatternError (Selector × List Token)} (h : Reads limit depth tokens outcome)
    (ih : ∀ inner : List Token, inner.length < tokens.length →
      readSiblings limit (depth + 1) [] (inner.map (Token.relocate place)) =
        (readSiblings limit (depth + 1) [] inner).mapError (PatternError.relocate place)) :
    Reads limit depth (tokens.map (Token.relocate place)) (relocateOutcome place outcome) := by
  cases h with
  | leaf hk hf => exact .leaf hk hf.relocate
  | @branch key first colon opening closing inner tail left children hh hd he hc hf =>
    have hinner := ih inner (by simp; omega)
    rw [hc] at hinner
    rw [map_relocate_object]
    exact .branch hh.relocate hd he.relocate hinner hf.relocate
  | noKey hk => exact .noKey hk
  | noSeparator hk h h' => exact .noSeparator hk h h'
  | noObject hk hc h => exact .noObject hk hc (by simpa using h)
  | tooDeep hh hd => exact .tooDeep hh.relocate hd
  | unclosed hh hd h => exact .unclosed hh.relocate hd (closeOffset?_relocate h)
  | @inside key first colon opening closing inner tail error hh hd he h =>
    have hinner := ih inner (by simp; omega)
    rw [h] at hinner
    rw [map_relocate_object]
    exact .inside hh.relocate hd he.relocate hinner
  | @noComma key first colon opening closing next inner more children hh hd he hc h =>
    have hinner := ih inner (by simp; omega)
    rw [hc] at hinner
    have hnext : (next.relocate place).kind ≠ .comma := h
    rw [map_relocate_object]
    exact .noComma hh.relocate hd he.relocate hinner hnext

/-- By induction on reading: the first expression is moved as a whole, then the others. -/
theorem readSiblings_relocate (limit depth : Nat) (seen : List String) (tokens : List Token) :
    readSiblings limit depth seen (tokens.map (Token.relocate place)) =
      (readSiblings limit depth seen tokens).mapError (PatternError.relocate place) := by
  induction depth, seen, tokens using readSiblings_induct limit with
  | nil depth seen =>
    rw [List.map_nil, readSiblings_nil]
    rfl
  | fails depth seen first rest error hr hinner =>
    rw [readSiblings_of_error hr]
    exact readSiblings_of_error (hr.relocate place hinner)
  | repeats depth seen first rest s left hr hs hinner =>
    rw [readSiblings_of_repeated hr hs]
    exact readSiblings_of_repeated (hr.relocate place hinner) hs
  | goes depth seen first rest s left hr hs hinner ih =>
    have hmoved := hr.relocate place hinner
    rw [readSiblings_of_ok hr hs, List.map_cons, readSiblings_of_ok hmoved hs, ih]
    cases readSiblings limit depth (s.key :: seen) left <;> rfl

end Reading

/-! ## What a pattern comes to -/

/-- What the tokens of a whole pattern come to, with tokens in place of their spans. -/
inductive Verdict where
  | accepted (selectors : List Selector)
  /-- There are no tokens. -/
  | empty
  /-- Something is wrong at a token. -/
  | about (fault : Fault) (token : Token)
  /-- Something stands behind the root object, from a token to the last one. -/
  | behind (next last : Token)

namespace Verdict

/-- The outcome, when the tokens are moved. -/
def outcome (place : Span → Span) : Verdict → Except PatternError (List Selector)
  | accepted selectors => .ok selectors
  | empty => .error (Fault.emptyPattern.spanning ⟨0, 0⟩)
  | about fault token => .error (fault.spanning (place token.span))
  | behind next last =>
    .error (Fault.trailingText.spanning ((place next.span).through (place last.span)))

/-- Whether the tokens that a verdict names are among the given ones. -/
def Names (tokens : List Token) : Verdict → Prop
  | about fault token => fault.Local ∧ token ∈ tokens
  | behind next last => next ∈ tokens ∧ tokens.getLast? = some last
  | _ => True

end Verdict

section Verdict

variable {limit : Nat}

theorem exists_verdict_inside {opening closing : Token} {inner : List Token}
    (ho : opening.kind = .openBrace) (he : Enclosed inner closing) :
    ∃ v : Verdict, v.Names (opening :: (inner ++ [closing])) ∧ ∀ place,
      Builds limit ((opening :: (inner ++ [closing])).map (Token.relocate place))
        (v.outcome place) := by
  have hmoved : ∀ place, buildObject limit 1 (inner.map (Token.relocate place)) =
      (buildObject limit 1 inner).mapError (PatternError.relocate place) :=
    fun place => readSiblings_relocate place limit 1 [] inner
  have hbuilds : ∀ place,
      Builds limit ((opening :: (inner ++ [closing])).map (Token.relocate place))
        ((buildObject limit 1 inner).mapError (PatternError.relocate place)) := by
    intro place
    rw [List.map_cons, List.map_append]
    exact .inside ho he.relocate (hmoved place)
  cases hb : buildObject limit 1 inner with
  | ok selectors =>
    rw [hb] at hbuilds
    exact ⟨.accepted selectors, trivial, hbuilds⟩
  | error error =>
    rw [hb] at hbuilds
    obtain ⟨token, ht, fault, hf, rfl⟩ := readSiblings_about hb
    exact ⟨.about fault token, ⟨hf, by simp [ht]⟩, hbuilds⟩

/-- The builder decides by the kinds of the tokens alone what they come to. -/
theorem exists_verdict (limit : Nat) (tokens : List Token) :
    ∃ v : Verdict, v.Names tokens ∧
      ∀ place, buildRoot limit (tokens.map (Token.relocate place)) = v.outcome place := by
  simp only [buildRoot_eq_iff]
  obtain ⟨outcome, h⟩ := exists_builds limit tokens
  cases h with
  | empty => exact ⟨.empty, trivial, fun place => .empty⟩
  | @unopened opening rest h =>
    exact ⟨.about (.unexpectedToken .openBrace) opening, ⟨⟨by decide, by decide⟩, by simp⟩,
      fun place => .unopened h⟩
  | @unclosed opening rest ho h =>
    exact ⟨.about .unclosedRoot opening, ⟨⟨by decide, by decide⟩, by simp⟩,
      fun place => .unclosed ho (closeOffset?_relocate h)⟩
  | @trailing opening closing next last inner others ho he hl =>
    have hlast : (opening :: (inner ++ closing :: next :: others)).getLast? = some last := by
      rw [← List.cons_append, List.getLast?_append, List.getLast?_cons_cons, hl]
      rfl
    refine ⟨.behind next last, ⟨by simp, hlast⟩, fun place => ?_⟩
    have hl' : ((next :: others).map (Token.relocate place)).getLast? =
        some (last.relocate place) := by
      rw [List.getLast?_map, hl]
      rfl
    have ho' : (opening.relocate place).kind = .openBrace := ho
    rw [List.map_cons, List.map_append]
    exact .trailing ho' he.relocate hl'
  | inside ho he h => exact exists_verdict_inside ho he

end Verdict

/-! ## Two patterns with the same tokens -/

/-- Tokens of the given kinds, each at its index. -/
def numbered (kinds : List TokenKind) : List Token :=
  kinds.mapIdx fun i kind => ⟨kind, ⟨i, 0⟩⟩

/-- Where the token stands whose index a span tells. -/
def placeIn (tokens : List Token) (span : Span) : Span :=
  (tokens[span.position]?.map Token.span).getD span

section Numbered

variable {tokens : List Token}

theorem getElem?_numbered (kinds : List TokenKind) (i : Nat) :
    (numbered kinds)[i]? = kinds[i]?.map fun kind => ⟨kind, ⟨i, 0⟩⟩ := by
  rw [numbered, List.getElem?_mapIdx]

/-- All tokens are obtained by moving numbered ones. -/
theorem relocate_numbered (tokens : List Token) :
    (numbered (tokens.map Token.kind)).map (Token.relocate (placeIn tokens)) = tokens := by
  refine List.ext_getElem? fun i => ?_
  rw [List.getElem?_map, getElem?_numbered, List.getElem?_map]
  cases h : tokens[i]? with
  | none => rfl
  | some token => simp [Token.relocate, placeIn, h]

/-- A numbered token is moved to the place of the token at its index. -/
theorem exists_getElem?_of_numbered {token : Token} {i : Nat}
    (h : (numbered (tokens.map Token.kind))[i]? = some token) :
    ∃ moved, tokens[i]? = some moved ∧ placeIn tokens token.span = moved.span := by
  rw [getElem?_numbered, List.getElem?_map] at h
  cases ht : tokens[i]? with
  | none => simp [ht] at h
  | some moved =>
    rw [ht] at h
    obtain rfl := Option.some.inj h
    exact ⟨moved, rfl, by simp [placeIn, ht]⟩

end Numbered

/-- Two errors with one cause cover the same tokens, each those of its own pattern. -/
inductive CoverSame (ts us : List Token) : Fault → Span → Span → Prop
  /-- There are no tokens to cover. -/
  | nothing : CoverSame ts us .emptyPattern ⟨0, 0⟩ ⟨0, 0⟩
  /-- Both cover the token at one index. -/
  | one {fault : Fault} {i : Nat} {t u : Token} (hl : fault.Local) (ht : ts[i]? = some t)
      (hu : us[i]? = some u) : CoverSame ts us fault t.span u.span
  /-- Both cover what stands behind the root object, from the token at one index to the end
      of the last token. -/
  | behind {i : Nat} {t u tLast uLast : Token} {span other : Span} (ht : ts[i]? = some t)
      (hu : us[i]? = some u) (htl : ts.getLast? = some tLast) (hul : us.getLast? = some uLast)
      (hspan : span.position = t.span.position ∧ span.stop = tLast.span.stop)
      (hother : other.position = u.span.position ∧ other.stop = uLast.span.stop) :
      CoverSame ts us .trailingText span other

section CoverSame

variable {ts us : List Token}

/-- From a token to the last one there is no way back. -/
theorem stop_through_last {pattern : String} (h : tokenize pattern = .ok ts) {token last : Token}
    (ht : token ∈ ts) (hl : ts.getLast? = some last) :
    (token.span.through last.span).stop = last.span.stop := by
  have hs := tokenize_eq_ok_iff.1 h
  obtain ⟨before, others, rfl⟩ := List.append_of_mem ht
  have hlast : (token :: others).getLast? = some last := by
    rwa [List.getLast?_append, List.getLast?_eq_some_getLast (List.cons_ne_nil token others),
      Option.some_or, ← List.getLast?_eq_some_getLast] at hl
  have hlt := hs.position_lt_stop (List.mem_of_getLast? hlast)
  exact Span.stop_through (Nat.le_of_lt hlt)

/-- The last of the numbered tokens is moved to the place of the last token. -/
theorem exists_getLast?_of_numbered {last : Token}
    (h : (numbered (ts.map Token.kind)).getLast? = some last) :
    ∃ moved, ts.getLast? = some moved ∧ placeIn ts last.span = moved.span := by
  rw [List.getLast?_eq_getElem?] at h
  obtain ⟨moved, hm, hp⟩ := exists_getElem?_of_numbered h
  refine ⟨moved, ?_, hp⟩
  rw [List.getLast?_eq_getElem?, ← hm]
  simp [numbered]

/-- What tokens come to by their kinds alone, the tokens of both patterns come to. -/
theorem buildRoot_same_tokens {p q : String} (hp : tokenize p = .ok ts) (hq : tokenize q = .ok us)
    (hk : ts.map Token.kind = us.map Token.kind) (limit : Nat) :
    (∃ selectors, buildRoot limit ts = .ok selectors ∧ buildRoot limit us = .ok selectors) ∨
    ∃ fault span other, buildRoot limit ts = .error (fault.spanning span) ∧
      buildRoot limit us = .error (fault.spanning other) ∧ CoverSame ts us fault span other := by
  obtain ⟨v, hv, hout⟩ := exists_verdict limit (numbered (ts.map Token.kind))
  have hts := hout (placeIn ts)
  have hus := hout (placeIn us)
  rw [relocate_numbered] at hts
  rw [hk, relocate_numbered] at hus
  cases v with
  | accepted selectors => exact .inl ⟨selectors, hts, hus⟩
  | empty => exact .inr ⟨_, _, _, hts, hus, .nothing⟩
  | about fault token =>
    obtain ⟨hl, hmem⟩ := hv
    obtain ⟨i, hi⟩ := List.mem_iff_getElem?.1 hmem
    obtain ⟨t, ht, hpt⟩ := exists_getElem?_of_numbered hi
    rw [hk] at hi
    obtain ⟨u, hu, hpu⟩ := exists_getElem?_of_numbered hi
    have hcover : CoverSame ts us fault (placeIn ts token.span) (placeIn us token.span) := by
      rw [hpt, hpu]
      exact .one hl ht hu
    exact .inr ⟨_, _, _, hts, hus, hcover⟩
  | behind next last =>
    obtain ⟨hmem, hlast⟩ := hv
    obtain ⟨i, hi⟩ := List.mem_iff_getElem?.1 hmem
    obtain ⟨t, ht, hpt⟩ := exists_getElem?_of_numbered hi
    obtain ⟨tLast, htl, hptl⟩ := exists_getLast?_of_numbered hlast
    rw [hk] at hi hlast
    obtain ⟨u, hu, hpu⟩ := exists_getElem?_of_numbered hi
    obtain ⟨uLast, hul, hpul⟩ := exists_getLast?_of_numbered hlast
    have hcover : CoverSame ts us .trailingText
        ((placeIn ts next.span).through (placeIn ts last.span))
        ((placeIn us next.span).through (placeIn us last.span)) := by
      rw [hpt, hptl, hpu, hpul]
      exact .behind ht hu htl hul
        ⟨rfl, stop_through_last hp (List.mem_of_getElem? ht) htl⟩
        ⟨rfl, stop_through_last hq (List.mem_of_getElem? hu) hul⟩
    exact .inr ⟨_, _, _, hts, hus, hcover⟩

end CoverSame

/-! ## Compiling -/

namespace Compiler

/-- Layout and spelling do not change what a pattern means. Two patterns whose tokens are of
    the same kinds, with the same keys, compile to the same selectors, or are refused for the
    same cause, with errors that cover the same tokens. -/
theorem compile_same_tokens (compiler : Compiler) {p q : String} {ts us : List Token}
    (hp : tokenize p = .ok ts) (hq : tokenize q = .ok us)
    (hk : ts.map Token.kind = us.map Token.kind) :
    (∃ selectors, compiler.compile p = .ok ⟨p, selectors⟩ ∧
      compiler.compile q = .ok ⟨q, selectors⟩) ∨
    ∃ e f, compiler.compile p = .error e ∧ compiler.compile q = .error f ∧
      e.fault = f.fault ∧ CoverSame ts us e.fault e.span f.span := by
  have hps := compiler.selectors_of_tokenize hp
  have hqs := compiler.selectors_of_tokenize hq
  rcases buildRoot_same_tokens hp hq hk compiler.maxDepth with
    ⟨selectors, ht, hu⟩ | ⟨fault, span, other, ht, hu, hcover⟩
  · rw [ht] at hps
    rw [hu] at hqs
    exact .inl ⟨selectors, compile_eq_ok_iff.2 ⟨rfl, hps⟩, compile_eq_ok_iff.2 ⟨rfl, hqs⟩⟩
  · rw [ht] at hps
    rw [hu] at hqs
    exact .inr ⟨_, _, compile_eq_error_iff.2 ⟨_, hps, rfl⟩, compile_eq_error_iff.2 ⟨_, hqs, rfl⟩,
      rfl, hcover⟩

theorem compile_same_tokens_quoted :
    ∃ ts us e f, tokenize "\x7ba b\x7d" = .ok ts ∧ tokenize "\x7b\"a\"b\x7d" = .ok us ∧
      ts.map Token.kind = us.map Token.kind ∧ standard.compile "\x7ba b\x7d" = .error e ∧
      standard.compile "\x7b\"a\"b\x7d" = .error f ∧
      e.fault = .unexpectedToken .separator ∧ e.span = ⟨3, 1⟩ ∧
      CoverSame ts us e.fault e.span f.span := by
  have hp : tokenize "\x7ba b\x7d" = .ok [⟨.openBrace, ⟨0, 1⟩⟩, ⟨.text "a", ⟨1, 1⟩⟩,
      ⟨.text "b", ⟨3, 1⟩⟩, ⟨.closeBrace, ⟨4, 1⟩⟩] := by
    show tokenizeFrom 0 ['\x7b', 'a', ' ', 'b', '\x7d'] = _
    rw [tokenizeFrom_cons_of_ok rfl rfl, List.drop_zero, tokenizeFrom_cons_of_ok rfl rfl]
    show Except.map _ (Except.map _ (tokenizeFrom 2 [' ', 'b', '\x7d'])) = _
    rw [tokenizeFrom_cons_of_isBlank rfl, tokenizeFrom_cons_of_ok rfl rfl]
    show Except.map _ (Except.map _ (Except.map _ (tokenizeFrom 4 ['\x7d']))) = _
    rw [tokenizeFrom_cons_of_ok rfl rfl, List.drop_zero, tokenizeFrom_nil]
    rfl
  have hq : tokenize "\x7b\"a\"b\x7d" = .ok [⟨.openBrace, ⟨0, 1⟩⟩, ⟨.text "a", ⟨1, 3⟩⟩,
      ⟨.text "b", ⟨4, 1⟩⟩, ⟨.closeBrace, ⟨5, 1⟩⟩] := by
    show tokenizeFrom 0 ['\x7b', '\"', 'a', '\"', 'b', '\x7d'] = _
    rw [tokenizeFrom_cons_of_ok rfl rfl, List.drop_zero, tokenizeFrom_cons_of_ok rfl rfl]
    show Except.map _ (Except.map _ (tokenizeFrom 4 ['b', '\x7d'])) = _
    rw [tokenizeFrom_cons_of_ok rfl rfl]
    show Except.map _ (Except.map _ (Except.map _ (tokenizeFrom 5 ['\x7d']))) = _
    rw [tokenizeFrom_cons_of_ok rfl rfl, List.drop_zero, tokenizeFrom_nil]
    rfl
  have he : standard.selectors "\x7ba b\x7d" =
      .error ((Fault.unexpectedToken .separator).spanning ⟨3, 1⟩) := by
    rw [standard.selectors_of_tokenize hp]
    simp [buildRoot, buildObject, closeOffset?, readSiblings_cons, readFirst, readExpression_def,
      Except.bind, Except.map]
  have hc := compile_eq_error_iff.2 ⟨_, he, rfl⟩
  rcases standard.compile_same_tokens hp hq rfl with
    ⟨selectors, hok, -⟩ | ⟨e, f, hpe, hqf, -, hcover⟩
  · rw [hc] at hok
    contradiction
  · obtain rfl := Except.error.inj (hc.symm.trans hpe)
    exact ⟨_, _, _, f, hp, hq, rfl, hc, hqf, rfl, rfl, hcover⟩

end Compiler

end FieldMask
