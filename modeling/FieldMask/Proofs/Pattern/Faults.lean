import FieldMask.Proofs.Pattern.Acceptance
import FieldMask.Proofs.Pattern.Viable
import Mathlib.Logic.ExistsUnique

/-!
# Faults are found where they are

If the builder refuses a pattern, its error is about the first token at which
the pattern goes wrong: the tokens up to there are the beginning of a pattern
and with the next one they are not, or an object opens beyond the limit, or a
key repeats the key of a sibling. Every slice of tokens that is read by itself
is balanced, so a nested object is never found unclosed.

Results:
* `located`: an error inside an object is about a token at which the pattern
  goes wrong.
* `existsUnique_refusal`: the five ways in which a pattern is refused, of which
  exactly one applies.
-/

namespace FieldMask

open Grammar

/-! ## What goes wrong at a token -/

/-- A sibling before the end of some tokens has the key: the objects opened behind it
    are closed again. -/
def HasSibling (key : String) (before : List Token) : Prop :=
  ∃ front earlier between, before = front ++ earlier :: between ∧ earlier.kind = .text key ∧
    Balanced (between.map Token.kind)

/-- What a fault reported at a token says about the token and those before and after it. -/
def Violation (limit : Nat) (before : List Token) (token : Token) (after : List Token) :
    Fault → Prop
  | .unexpectedToken .key | .unexpectedToken .separator | .commaMissing =>
    Viable (before.map Token.kind) ∧ ¬Viable ((before ++ [token]).map Token.kind)
  | .objectMissing =>
    token.kind = .colon ∧ Viable ((before ++ [token]).map Token.kind) ∧
      ¬Viable ((before ++ token :: after.take 1).map Token.kind)
  | .nestedTooDeep =>
    token.kind = .openBrace ∧ Viable ((before ++ [token]).map Token.kind) ∧
      braceCount ((before ++ [token]).map Token.kind) = limit + 1 ∧
      Shallow limit (before.map Token.kind)
  | .repeatedKey =>
    ∃ key, token.kind = .text key ∧ HasSibling key before ∧
      ∃ body tail s, token :: after = body ++ tail ∧ Expression (body.map Token.kind) s ∧
        Viable ((before ++ body).map Token.kind)
  | _ => False

/-- The error has the span of a token strictly inside the tokens, and what its fault says
    holds there. -/
def Blames (limit : Nat) (tokens : List Token) (error : PatternError) : Prop :=
  ∃ before token after, tokens = before ++ token :: after ∧ before ≠ [] ∧ after ≠ [] ∧
    error.span = token.span ∧ Violation limit before token after error.fault

/-! ## Siblings that have been read -/

namespace HasSibling

theorem append {key : String} {before : List Token} (h : HasSibling key before)
    {more : List Token} (hm : Balanced (more.map Token.kind)) :
    HasSibling key (before ++ more) := by
  obtain ⟨front, earlier, between, rfl, hk, hb⟩ := h
  refine ⟨front, earlier, between ++ more, by simp, hk, ?_⟩
  rw [List.map_append]
  exact (closes_append_iff hb).2 hm

end HasSibling

namespace Grammar

theorem Expression.exists_cons {body : List Token} {s : Selector}
    (h : Expression (body.map Token.kind) s) : ∃ first inner, body = first :: inner ∧
      first.kind = .text s.key ∧ Balanced (inner.map Token.kind) := by
  cases body with
  | nil => exact absurd rfl h.ne_nil
  | cons first inner =>
    have hk : first.kind = .text s.key := Option.some.inj h.head_eq
    refine ⟨first, inner, rfl, hk, ?_⟩
    have hb := h.balanced
    rw [List.map_cons, hk] at hb
    exact (balanced_cons_iff rfl).1 hb

/-- An object is one level deeper than what stands between its braces. -/
theorem shallow_braces {inner : List TokenKind} {n : Nat} (h : Shallow n inner)
    (hb : Balanced inner) : Shallow (1 + n : Nat) (.openBrace :: (inner ++ [.closeBrace])) := by
  have hcount := hb.count_eq
  have hopen := weight_openBrace
  have hclose := weight_closeBrace
  refine .cons (by omega) (.append (h.mono (by omega)) (.cons (by omega) (shallow_nil_iff.2 ?_)))
  omega

mutual

theorem Expression.shallow {kinds : List TokenKind} {s : Selector} :
    Expression kinds s → Shallow s.nesting kinds
  | .leaf _ => .flat rfl (shallow_nil_iff.2 (Int.natCast_nonneg _))
  | @Expression.branch key inner children siblings => by
    rw [Selector.nesting]
    exact .flat rfl (.flat rfl (shallow_braces siblings.shallow siblings.balanced))

/-- Between an object's braces the count goes up by the nesting of the siblings. -/
theorem Siblings.shallow {kinds : List TokenKind} {selectors : List Selector} :
    Siblings kinds selectors → Shallow (Selector.nestings selectors) kinds
  | .nil => shallow_nil_iff.2 (Int.natCast_nonneg _)
  | @Siblings.last kinds s expression => by
    rw [Selector.nestings, Selector.nestings_nil, Nat.max_zero]
    exact expression.shallow
  | @Siblings.cons kinds more s rest expression siblings => by
    have hcount := expression.balanced.count_eq
    rw [Selector.nestings]
    refine .append (expression.shallow.mono (by omega)) (.flat rfl ?_)
    exact siblings.shallow.mono (by omega)

end

end Grammar

/-! ## Where reading stands -/

/-- Reading stands behind some tokens, in an object that `outer` others enclose, and
    has read siblings with the keys in `seen`. -/
structure Standing (limit outer : Nat) (seen : List String) (before : List Token) : Prop where
  reaches : Reaches outer (before.map Token.kind)
  shallow : Shallow limit (before.map Token.kind)
  repeats : ∀ key ∈ seen, HasSibling key before

/-- The tokens of the expression that was read, and those behind it. -/
theorem Reads.exists_expression {limit depth : Nat} {tokens left : List Token} {s : Selector}
    (h : Reads limit depth tokens (.ok (s, left))) (hd : depth ≤ limit) : ∃ body tail,
      tokens = body ++ tail ∧ Follows tail left ∧ Expression (body.map Token.kind) s ∧
      depth + s.nesting ≤ limit := by
  cases s with
  | leaf key =>
    obtain ⟨body, tail, rfl, he, hf⟩ := reads_leaf_iff.1 h
    exact ⟨body, tail, rfl, hf, he, by rwa [Selector.nesting]⟩
  | branch key children =>
    have hchildren : ∀ {inner : List Token},
        readSiblings limit (depth + 1) [] inner = .ok children ↔
          Siblings (inner.map Token.kind) children ∧
            Selector.Allowed limit (depth + 1) children := by
      intro inner
      simp [readSiblings_eq_ok_iff]
    obtain ⟨⟨hdeep, ha⟩, body, tail, rfl, he, hf⟩ := (reads_branch_iff hchildren).1 h
    refine ⟨body, tail, rfl, hf, he, ?_⟩
    have hn := (Selector.allowed_iff.1 ha).2
    rw [Selector.nesting]
    omega

namespace Standing

theorem openBrace {limit : Nat} (hl : 1 ≤ limit) {opening : Token}
    (ho : opening.kind = .openBrace) : Standing limit 0 [] [opening] where
  reaches := by
    rw [List.map_singleton, ho]
    exact reaches_openBrace
  shallow := by
    rw [List.map_singleton, ho]
    refine .cons (by omega) (shallow_nil_iff.2 ?_)
    rw [weight_openBrace]
    omega
  repeats := by simp

variable {limit outer : Nat} {seen : List String} {before : List Token}
  (h : Standing limit outer seen before)

include h

theorem depth_le : outer + 1 ≤ limit := by
  have hle := h.shallow.count_le
  rw [h.reaches.count_eq] at hle
  omega

theorem ne_nil : before ≠ [] := by
  rintro rfl
  have hcount := h.reaches.count_eq
  rw [List.map_nil, braceCount_nil] at hcount
  omega

/-- Reading moves on behind an expression and its comma. -/
theorem comma {body : List Token} {separator : Token} {s : Selector}
    (he : Expression (body.map Token.kind) s) (hn : outer + 1 + s.nesting ≤ limit)
    (hc : separator.kind = .comma) :
    Standing limit outer (s.key :: seen) (before ++ (body ++ [separator])) where
  reaches := by
    simpa [hc] using h.reaches.comma he
  shallow := by
    have hcount := h.reaches.count_eq
    have hbody := he.balanced.count_eq
    have hdepth := h.depth_le
    rw [List.map_append, List.map_append, List.map_singleton, hc]
    refine .append h.shallow (.append (he.shallow.mono (by omega)) (.flat rfl ?_))
    exact shallow_nil_iff.2 (by omega)
  repeats := by
    obtain ⟨first, inner, rfl, hk, hb⟩ := he.exists_cons
    intro key hmem
    rcases List.mem_cons.1 hmem with rfl | hmem
    · exact ⟨before, first, inner ++ [separator], rfl, hk, hb.comma hc⟩
    · exact (h.repeats key hmem).append (he.balanced.comma hc)

/-- Reading moves on into an object. -/
theorem nested {key : String} {first colon opening : Token}
    (hh : BranchHead key first colon opening) (hd : outer + 1 + 1 ≤ limit) :
    Standing limit (outer + 1) [] (before ++ [first, colon, opening]) where
  reaches := by
    rw [List.map_append, hh.map_kind]
    exact h.reaches.nested key
  shallow := by
    have hcount := h.reaches.count_eq
    rw [List.map_append, hh.map_kind]
    refine .append h.shallow (.flat rfl (.flat rfl (.cons (by omega) (shallow_nil_iff.2 ?_))))
    rw [weight_openBrace]
    omega
  repeats := by simp

/-! ## What is reported there -/

section Violation

variable {key : String} {first colon opening closing next : Token}

theorem violation_key (hk : ∀ key, first.kind ≠ .text key) (hc : first.kind ≠ .closeBrace)
    (after : List Token) : Violation limit before first after (.unexpectedToken .key) := by
  have hrun : (Progress.within outer .key).run [first.kind] = none := by
    cases hf : first.kind with
    | text key => exact absurd hf (hk key)
    | closeBrace => exact absurd hf hc
    | openBrace | comma | colon => rfl
  refine ⟨h.reaches.viable, ?_⟩
  simpa using h.reaches.not_viable hrun

theorem violation_separator (hk : first.kind = .text key) (hs : next.kind ≠ .comma)
    (hs' : next.kind ≠ .colon) (hc : next.kind ≠ .closeBrace) (after : List Token) :
    Violation limit (before ++ [first]) next after (.unexpectedToken .separator) := by
  have hrun : (Progress.within outer .key).run [.text key, next.kind] = none := by
    cases hn : next.kind with
    | comma => exact absurd hn hs
    | colon => exact absurd hn hs'
    | closeBrace => exact absurd hn hc
    | openBrace | text => rfl
  refine ⟨?_, ?_⟩
  · simpa [hk] using h.reaches.viable_expression (.leaf key)
  · simpa [hk] using h.reaches.not_viable hrun

theorem violation_object (hk : first.kind = .text key) (hc : colon.kind = .colon)
    (hn : next.kind ≠ .openBrace) (after : List Token) :
    Violation limit (before ++ [first]) colon (next :: after) .objectMissing := by
  have hrun : (Progress.within outer .key).run [.text key, .colon, next.kind] = none := by
    cases ho : next.kind with
    | openBrace => exact absurd ho hn
    | closeBrace | comma | colon | text => rfl
  have hopen : Viable ((before.map Token.kind ++ [.text key, .colon]) ++ [.openBrace]) := by
    simpa using (h.reaches.nested key).viable
  refine ⟨hc, ?_, ?_⟩
  · simpa [hk, hc] using hopen.of_append
  · simpa [hk, hc] using h.reaches.not_viable hrun

theorem violation_nested (hh : BranchHead key first colon opening) (hd : limit < outer + 1 + 1)
    (after : List Token) :
    Violation limit (before ++ [first, colon]) opening after .nestedTooDeep := by
  have hcount := h.reaches.count_eq
  have hdepth := h.depth_le
  have hnested := h.reaches.nested key
  have hhead : (before ++ [first, colon] ++ [opening]).map Token.kind =
      before.map Token.kind ++ [.text key, .colon, .openBrace] := by
    rw [List.append_assoc, List.map_append, ← hh.map_kind]
    rfl
  refine ⟨hh.brace_eq, ?_, ?_, ?_⟩
  · rw [hhead]
    exact hnested.viable
  · rw [hhead, hnested.count_eq]
    omega
  · have hk : first.kind.weight = 0 := by rw [hh.key_eq, weight_text]
    have hc : colon.kind.weight = 0 := by rw [hh.colon_eq, weight_colon]
    rw [List.map_append]
    exact .append h.shallow (.flat hk (.flat hc (shallow_nil_iff.2 (by omega))))

theorem violation_comma {inner : List Token} {children : List Selector}
    (hh : BranchHead key first colon opening) (hb : closing.kind = .closeBrace)
    (hs : Siblings (inner.map Token.kind) children) (hn : next.kind ≠ .comma)
    (hc : next.kind ≠ .closeBrace) (after : List Token) :
    Violation limit (before ++ (first :: colon :: opening :: (inner ++ [closing]))) next after
      .commaMissing := by
  have he : Expression ((first :: colon :: opening :: (inner ++ [closing])).map Token.kind)
      (.branch key children) :=
    expression_branch_iff.2 ⟨first, colon, opening, inner, closing, rfl, hh, hb, hs⟩
  have hrun : (Progress.within outer .key).run
      ((first :: colon :: opening :: (inner ++ [closing])).map Token.kind ++ [next.kind]) =
        none := by
    obtain ⟨spot, hspot, hinner⟩ := hs.run_eq (outer + 1)
    have hobject := run_object hspot hinner key
    rw [Progress.run_append]
    simp only [List.map_cons, List.map_append, List.map_nil, hh.key_eq, hh.colon_eq,
      hh.brace_eq, hb]
    rw [← List.cons_append, ← List.cons_append, ← List.cons_append, hobject]
    cases ho : next.kind with
    | comma => exact absurd ho hn
    | closeBrace => exact absurd ho hc
    | openBrace | colon | text => rfl
  refine ⟨?_, ?_⟩
  · rw [List.map_append]
    exact h.reaches.viable_expression he
  · rw [List.map_append, List.map_append, List.append_assoc]
    exact h.reaches.not_viable hrun

theorem violation_repeated {body tail : List Token} {s : Selector}
    (he : Expression (body.map Token.kind) s) (ht : first :: tail = body ++ after)
    (hs : s.key ∈ seen) : Violation limit before first tail .repeatedKey := by
  obtain ⟨head, inner, rfl, hk, -⟩ := he.exists_cons
  obtain ⟨rfl, -⟩ := List.cons.inj ht
  refine ⟨s.key, hk, h.repeats s.key hs, _, after, s, ht, he, ?_⟩
  rw [List.map_append]
  exact h.reaches.viable_expression he

end Violation

end Standing

/-! ## Errors inside an object -/

/-- Whatever error the siblings in the tokens are refused with, it is about a token at
    which the pattern goes wrong. -/
def Located (limit : Nat) (tokens : List Token) : Prop :=
  ∀ {outer : Nat} {seen : List String} {before after : List Token} {closing : Token}
    {error : PatternError}, Standing limit outer seen before → Enclosed tokens closing →
    readSiblings limit (outer + 1) seen tokens = .error error →
    Blames limit (before ++ (tokens ++ closing :: after)) error

section Object

variable {limit outer : Nat} {seen : List String} {before tokens after : List Token}
  {closing : Token} {error : PatternError}

/-- Between an object's braces no object is left open. -/
theorem not_unclosed {key : String} {first colon opening : Token} {rest : List Token}
    (hh : BranchHead key first colon opening)
    (hb : Balanced ((first :: colon :: opening :: rest).map Token.kind)) :
    closeOffset? 0 rest ≠ none := by
  have hcount := hb.count_eq
  simp only [List.map_cons, hh.key_eq, hh.colon_eq, hh.brace_eq, braceCount_cons, weight_text,
    weight_colon, weight_openBrace] at hcount
  intro hn
  have hle := closeOffset?_eq_none_iff.1 hn (rest.map Token.kind).length
  rw [List.take_length] at hle
  omega

theorem blames_of_reads (h : Standing limit outer seen before) (he : Enclosed tokens closing)
    (ih : ∀ inner : List Token, inner.length < tokens.length → Located limit inner)
    (hr : Reads limit (outer + 1) tokens (.error error)) :
    Blames limit (before ++ (tokens ++ closing :: after)) error := by
  obtain ⟨hbal, hclose⟩ := he
  cases hr with
  | @noKey first rest hk =>
    exact ⟨before, first, rest ++ closing :: after, rfl, h.ne_nil, by simp, rfl,
      h.violation_key hk hbal.head_ne _⟩
  | @noSeparator key first separator rest hk hs hs' =>
    rw [List.map_cons, hk, balanced_cons_iff rfl] at hbal
    exact ⟨before ++ [first], separator, rest ++ closing :: after, by simp, by simp, by simp, rfl,
      h.violation_separator hk hs hs' hbal.head_ne _⟩
  | @noObject key first colon rest hk hc hn =>
    cases rest with
    | nil =>
      have hn' : closing.kind ≠ .openBrace := by simp [hclose]
      exact ⟨before ++ [first], colon, closing :: after, by simp, by simp, by simp, rfl,
        h.violation_object hk hc hn' _⟩
    | cons next more =>
      exact ⟨before ++ [first], colon, next :: (more ++ closing :: after), by simp, by simp,
        by simp, rfl, h.violation_object hk hc (hn next rfl) _⟩
  | @tooDeep key first colon opening rest hh hd =>
    exact ⟨before ++ [first, colon], opening, rest ++ closing :: after, by simp, by simp, by simp,
      rfl, h.violation_nested hh hd _⟩
  | unclosed hh hd hn => exact absurd hn (not_unclosed hh hbal)
  | @inside key first colon opening brace inner tail _ hh hd hi hs =>
    have hinner : Blames limit (before ++ [first, colon, opening] ++
        (inner ++ brace :: (tail ++ closing :: after))) error :=
      ih inner (by simp; omega) (h.nested hh hd) hi hs
    simpa using hinner
  | @noComma key first colon opening brace next inner more children hh hd hi hs hn =>
    obtain ⟨⟨hsib, -⟩, -⟩ := readSiblings_eq_ok_iff.1 hs
    have hx : Expression ((first :: colon :: opening :: (inner ++ [brace])).map Token.kind)
        (.branch key children) :=
      expression_branch_iff.2 ⟨first, colon, opening, inner, brace, rfl, hh, hi.brace_eq, hsib⟩
    have hnext : Balanced (next.kind :: more.map Token.kind) := by
      refine (closes_append_iff hx.balanced).1 ?_
      simpa using hbal
    exact ⟨before ++ (first :: colon :: opening :: (inner ++ [brace])), next,
      more ++ closing :: after, by simp, by simp, by simp, rfl,
      h.violation_comma hh hi.brace_eq hsib hn hnext.head_ne _⟩

/-- The error of the siblings behind an expression and its comma. -/
theorem blames_of_follows {body tail left : List Token} {s : Selector}
    (h : Standing limit outer seen before) (hx : Expression (body.map Token.kind) s)
    (hn : outer + 1 + s.nesting ≤ limit) (hf : Follows tail left)
    (he : Enclosed (body ++ tail) closing) (ih : Located limit left)
    (hm : readSiblings limit (outer + 1) (s.key :: seen) left = .error error) :
    Blames limit (before ++ (body ++ tail ++ closing :: after)) error := by
  cases hf with
  | nothing => simp at hm
  | @comma separator left hc =>
    have hbal : Balanced ((separator :: left).map Token.kind) := by
      refine (closes_append_iff hx.balanced).1 ?_
      simpa using he.balanced
    rw [List.map_cons, hc, balanced_cons_iff rfl] at hbal
    have hleft : Blames limit (before ++ (body ++ [separator]) ++ (left ++ closing :: after))
        error :=
      ih (h.comma hx hn hc) ⟨hbal, he.brace_eq⟩ hm
    simpa using hleft

/-- By induction on the tokens: reading fails at the first expression, or repeats its key,
    or goes on behind it. -/
theorem located (limit : Nat) (tokens : List Token) : Located limit tokens := by
  induction hlen : tokens.length using Nat.strongRecOn generalizing tokens with
  | ind n ih =>
    subst hlen
    intro outer seen before after closing error h he hr
    cases tokens with
    | nil => simp at hr
    | cons first rest =>
      obtain ⟨fault, hreads, hc⟩ | ⟨s, left, hreads, hs, hc⟩ | ⟨s, left, hreads, -, hc⟩ :=
        readSiblings_cases limit (outer + 1) seen first rest
      · rw [hc] at hr
        obtain rfl := Except.error.inj hr
        exact blames_of_reads h he (fun inner hlt => ih _ hlt inner rfl) hreads
      · rw [hc] at hr
        obtain rfl := Except.error.inj hr
        obtain ⟨body, tail, ht, -, hx, -⟩ := hreads.exists_expression h.depth_le
        have hafter : first :: (rest ++ closing :: after) = body ++ (tail ++ closing :: after) := by
          rw [← List.append_assoc, ← ht]
          rfl
        exact ⟨before, first, rest ++ closing :: after, rfl, h.ne_nil, by simp, rfl,
          h.violation_repeated hx hafter hs⟩
      · rw [hc, map_eq_error_iff] at hr
        obtain ⟨body, tail, ht, hf, hx, hn⟩ := hreads.exists_expression h.depth_le
        rw [ht] at he ⊢
        exact blames_of_follows h hx hn hf he (ih _ hreads.length_lt left rfl) hr

end Object

/-! ## A whole pattern -/

/-- Each token ends before the ones behind it start. -/
def InSourceOrder (tokens : List Token) : Prop :=
  tokens.Pairwise fun token next => token.span.stop ≤ next.span.position

/-- The tokens start with an opening brace, and the running brace count first returns to
    zero at the last of them. -/
structure FirstReturn (kinds : List TokenKind) : Prop where
  opens : kinds.head? = some .openBrace
  count_eq : braceCount kinds = 0
  count_ne : ∀ n, 0 < n → n < kinds.length → braceCount (kinds.take n) ≠ 0

/-- The ways in which a whole pattern is refused. -/
inductive Refusal where
  /-- There are no tokens. -/
  | empty
  /-- The first token is no opening brace. -/
  | unopened
  /-- The root object is not closed. -/
  | unclosed
  /-- There are tokens behind the root object. -/
  | trailing
  /-- Something is wrong inside the root object. -/
  | inside

namespace Refusal

/-- What a way of being refused says about the tokens and the error. -/
def Holds (limit : Nat) (tokens : List Token) (error : PatternError) : Refusal → Prop
  | empty => tokens = [] ∧ error = Fault.emptyPattern.spanning ⟨0, 0⟩
  | unopened => ∃ first rest, tokens = first :: rest ∧ first.kind ≠ .openBrace ∧
      error = (Fault.unexpectedToken .openBrace).spanning first.span
  | unclosed => ∃ opening rest, tokens = opening :: rest ∧ opening.kind = .openBrace ∧
      (∀ n, 0 < n → n ≤ tokens.length → braceCount ((tokens.map Token.kind).take n) ≠ 0) ∧
      error = Fault.unclosedRoot.spanning opening.span
  | trailing => ∃ object next others, tokens = object ++ next :: others ∧
      FirstReturn (object.map Token.kind) ∧ error.fault = .trailingText ∧
      error.span.position = next.span.position ∧
      error.span.stop = ((next :: others).getLast (List.cons_ne_nil next others)).span.stop
  | inside => FirstReturn (tokens.map Token.kind) ∧ Blames limit tokens error

/-- The way of being refused that a fault belongs to. -/
def ofFault : Fault → Refusal
  | .emptyPattern => empty
  | .unexpectedToken .openBrace => unopened
  | .unclosedRoot => unclosed
  | .trailingText => trailing
  | _ => inside

theorem Holds.eq_ofFault {limit : Nat} {tokens : List Token} {error : PatternError} {c : Refusal}
    (h : c.Holds limit tokens error) : c = ofFault error.fault := by
  cases c with
  | empty =>
    obtain ⟨-, rfl⟩ := h
    rfl
  | unopened =>
    obtain ⟨_, _, -, -, rfl⟩ := h
    rfl
  | unclosed =>
    obtain ⟨_, _, -, -, -, rfl⟩ := h
    rfl
  | trailing =>
    obtain ⟨_, _, _, -, -, hf, -⟩ := h
    rw [hf]
    rfl
  | inside =>
    obtain ⟨-, _, _, _, -, -, -, -, hv⟩ := h
    unfold Violation at hv
    split at hv <;> simp_all [ofFault]

end Refusal

/-- Behind the opening brace the count returns to zero where the object is closed. -/
theorem Closes.firstReturn {inner : List TokenKind} (h : Balanced inner) :
    FirstReturn (.openBrace :: (inner ++ [.closeBrace])) where
  opens := rfl
  count_eq := by simp [h.count_eq]
  count_ne := by
    intro n hpos hlt
    obtain ⟨m, rfl⟩ : ∃ m, n = m + 1 := ⟨n - 1, by omega⟩
    have hle : m ≤ inner.length := by
      rw [List.length_cons, List.length_append, List.length_singleton] at hlt
      omega
    have hcount := h.le_count m
    rw [List.take_succ_cons, braceCount_cons, weight_openBrace, List.take_append_of_le_length hle]
    omega

section Root

variable {limit : Nat} {tokens : List Token} {error : PatternError}

theorem InSourceOrder.position_le {next : Token} {others : List Token}
    (h : InSourceOrder (next :: others)) :
    next.span.position ≤ ((next :: others).getLast (List.cons_ne_nil next others)).span.stop := by
  obtain ⟨hn, -⟩ := List.pairwise_cons.1 h
  rcases List.mem_cons.1 (List.getLast_mem (l := next :: others) (by simp)) with hlast | hlast
  · rw [hlast]
    exact Nat.le_add_right _ _
  · have hstop := hn _ hlast
    simp only [Span.stop] at hstop ⊢
    omega

theorem holds_unclosed {opening : Token} {rest : List Token} (ho : opening.kind = .openBrace)
    (h : closeOffset? 0 rest = none) : Refusal.unclosed.Holds limit (opening :: rest)
      (Fault.unclosedRoot.spanning opening.span) := by
  refine ⟨opening, rest, rfl, ho, fun n hpos hle => ?_, rfl⟩
  obtain ⟨m, rfl⟩ : ∃ m, n = m + 1 := ⟨n - 1, by omega⟩
  have hcount := closeOffset?_eq_none_iff.1 h m
  rw [List.map_cons, List.take_succ_cons, braceCount_cons, ho, weight_openBrace]
  omega

/-- What stands up to the closing brace is the root object. -/
theorem firstReturn_object {opening closing : Token} {inner : List Token}
    (ho : opening.kind = .openBrace) (he : Enclosed inner closing) :
    FirstReturn ((opening :: (inner ++ [closing])).map Token.kind) := by
  simpa [ho, he.brace_eq] using he.balanced.firstReturn

theorem exists_refusal (hl : 1 ≤ limit) (hs : InSourceOrder tokens)
    (h : buildRoot limit tokens = .error error) : ∃ c : Refusal, c.Holds limit tokens error := by
  cases buildRoot_eq_iff.1 h with
  | empty => exact ⟨.empty, rfl, rfl⟩
  | unopened ho => exact ⟨.unopened, _, _, rfl, ho, rfl⟩
  | unclosed ho hn => exact ⟨.unclosed, holds_unclosed ho hn⟩
  | inside ho he h =>
    exact ⟨.inside, firstReturn_object ho he, located limit _ (.openBrace hl ho) he h⟩
  | @trailing opening closing next last inner others ho he hlast =>
    rw [List.getLast?_eq_some_getLast (List.cons_ne_nil next others)] at hlast
    obtain rfl := Option.some.inj hlast
    rw [cons_append_closing] at hs ⊢
    have hafter : InSourceOrder (next :: others) := (List.pairwise_append.1 hs).2.1
    exact ⟨.trailing, _, next, others, rfl, firstReturn_object ho he, rfl, rfl,
      Span.stop_through hafter.position_le⟩

end Root

/-- A pattern is refused in exactly one way: there are no tokens, or none that opens the
    root object, or none that closes it, or some behind it, or else the error is about a
    token inside it at which the pattern goes wrong. -/
theorem existsUnique_refusal (limit : Nat) (hl : 1 ≤ limit) (tokens : List Token)
    (hs : InSourceOrder tokens) (error : PatternError)
    (h : buildRoot limit tokens = .error error) : ∃! c : Refusal, c.Holds limit tokens error := by
  obtain ⟨c, hc⟩ := exists_refusal hl hs h
  refine ⟨c, hc, fun other ho => ?_⟩
  rw [ho.eq_ofFault, hc.eq_ofFault]

theorem existsUnique_refusal_commaMissing :
    ∃! c : Refusal, c.Holds 2
      [⟨.openBrace, ⟨0, 1⟩⟩, ⟨.text "a", ⟨1, 1⟩⟩, ⟨.colon, ⟨2, 1⟩⟩, ⟨.openBrace, ⟨3, 1⟩⟩,
        ⟨.text "b", ⟨4, 1⟩⟩, ⟨.closeBrace, ⟨5, 1⟩⟩, ⟨.text "c", ⟨7, 1⟩⟩, ⟨.closeBrace, ⟨8, 1⟩⟩]
      (Fault.commaMissing.spanning ⟨7, 1⟩) := by
  refine existsUnique_refusal 2 (by decide) _ ?_ _ ?_
  · simp [InSourceOrder, Span.stop]
  · simp [buildRoot, buildObject, closeOffset?, readSiblings_cons, readFirst, readExpression_def,
      readObject_cons, Except.bind, Except.map]

end FieldMask
