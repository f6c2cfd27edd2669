import FieldMask.Proofs.Pattern.Lexemes
import FieldMask.Proofs.Pattern.Reading
import Mathlib.Logic.ExistsUnique

/-!
# Cutting a pattern into lexemes

Tokens cut a pattern if their spans follow each other in it, each covers a
lexeme of its token, and what no span covers is blank. A pattern can be cut in
at most one way, and reading it finds that way.

The reader works on what is left of the pattern, so the statement that the
induction proves is about the pattern from an offset on.

Results:
* `segments_skip`, `segments_cons`: the next character is blank, or the first
  token starts there.
* `tokenizeFrom_eq_ok_iff`, `tokenize_eq_ok_iff`: what is read, from an offset on
  and of a whole pattern, is how it is cut.
* `tokenize_eq_ok_iff_segments`: a pattern can be cut in one way or not at all.
-/

namespace FieldMask

/-- The characters of a text that a span covers. -/
def Span.slice (span : Span) (text : List Char) : List Char :=
  (text.drop span.position).take span.length

section Slice

variable {span : Span} {text : List Char}

theorem Span.length_slice (h : span.stop ≤ text.length) :
    (span.slice text).length = span.length := by
  simp only [Span.stop] at h
  rw [Span.slice, List.length_take, List.length_drop]
  omega

theorem Span.head?_slice (h : 1 ≤ span.length) :
    (span.slice text).head? = text[span.position]? := by
  rw [Span.slice, List.head?_take, if_neg (by omega), List.head?_drop]

theorem Span.getLast?_slice (h : 1 ≤ span.length) (hs : span.stop ≤ text.length) :
    (span.slice text).getLast? = text[span.stop - 1]? := by
  have hlast : span.position + (span.length - 1) = span.stop - 1 := by
    simp only [Span.stop]
    omega
  rw [List.getLast?_eq_getElem?, Span.length_slice hs, Span.slice, List.getElem?_take,
    if_pos (by omega), List.getElem?_drop, hlast]

end Slice

/-- Tokens cut a text from offset `start` on. -/
structure Segments (start : Nat) (text : List Char) (tokens : List Token) : Prop where
  /-- No token is empty. -/
  nonempty : ∀ token ∈ tokens, 1 ≤ token.span.length
  /-- Each token ends before the ones behind it start. -/
  ordered : tokens.Pairwise fun token next => token.span.stop ≤ next.span.position
  /-- The tokens lie in the text. -/
  inside : ∀ token ∈ tokens, start ≤ token.span.position ∧ token.span.stop ≤ text.length
  /-- What stands outside of all tokens is blank. -/
  blank : ∀ i c, start ≤ i → text[i]? = some c →
    (∀ token ∈ tokens, i < token.span.position ∨ token.span.stop ≤ i) → isBlank c = true
  /-- Each token covers a lexeme of its kind, in front of what follows it. -/
  lexeme : ∀ token ∈ tokens,
    token.kind.Matches (token.span.slice text) (text.drop token.span.stop)

/-! ## One step -/

section Step

variable {start : Nat} {text rest : List Char} {c : Char} {tokens : List Token}

/-- A token does not start at a blank character. -/
theorem Segments.position_ne (hs : Segments start text tokens) {token : Token} (ht : token ∈ tokens)
    {i : Nat} (hi : text[i]? = some c) (hb : isBlank c = true) : token.span.position ≠ i := by
  rintro rfl
  have hpos := hs.nonempty token ht
  have hhead := (hs.lexeme token ht).head_visible c (by
    rw [Span.head?_slice hpos, hi]
    rfl)
  rw [hb] at hhead
  contradiction

theorem segments_of_drop_nil (h : text.drop start = []) :
    Segments start text tokens ↔ tokens = [] := by
  have hlen : text.length ≤ start := List.drop_eq_nil_iff.1 h
  constructor
  · intro hs
    cases tokens with
    | nil => rfl
    | cons first rest =>
      have hpos := hs.nonempty first List.mem_cons_self
      have hin := hs.inside first List.mem_cons_self
      simp only [Span.stop] at hin
      omega
  · rintro rfl
    refine ⟨by simp, .nil, by simp, ?_, by simp⟩
    intro i c hi hc
    have := (List.getElem?_eq_some_iff.1 hc).1
    omega

/-- A blank character belongs to no token. -/
theorem segments_skip (h : text.drop start = c :: rest) (hb : isBlank c = true) :
    Segments start text tokens ↔ Segments (start + 1) text tokens := by
  have hc := getElem?_of_drop h
  constructor
  · intro hs
    refine ⟨hs.nonempty, hs.ordered, ?_, ?_, hs.lexeme⟩
    · intro token ht
      have hin := hs.inside token ht
      have hne := hs.position_ne ht hc hb
      omega
    · intro i d hi
      exact hs.blank i d (by omega)
  · intro hs
    refine ⟨hs.nonempty, hs.ordered, ?_, ?_, hs.lexeme⟩
    · intro token ht
      have hin := hs.inside token ht
      omega
    · intro i d hi hd hout
      by_cases hi' : i = start
      · rw [hi', hc] at hd
        rw [← Option.some.inj hd]
        exact hb
      · exact hs.blank i d (by omega) hd hout

/-- The first token starts at the first character that is not blank. -/
theorem Segments.exists_first (hs : Segments start text tokens) (hc : text[start]? = some c)
    (hb : isBlank c = false) :
    ∃ first others, tokens = first :: others ∧ first.span.position = start := by
  have hcover : ∃ token ∈ tokens, token.span.position ≤ start ∧ start < token.span.stop := by
    by_contra hno
    have hblank := hs.blank start c (Nat.le_refl _) hc (by
      intro token ht
      by_contra hout
      exact hno ⟨token, ht, by omega, by omega⟩)
    rw [hb] at hblank
    contradiction
  obtain ⟨token, ht, hle, hlt⟩ := hcover
  cases tokens with
  | nil => cases ht
  | cons first others =>
    have hin := hs.inside first List.mem_cons_self
    refine ⟨first, others, rfl, ?_⟩
    rcases List.mem_cons.1 ht with rfl | ht
    · omega
    · -- Otherwise the first token would have to end before the one that covers the start.
      have hpos := hs.nonempty first List.mem_cons_self
      have hord := (List.pairwise_cons.1 hs.ordered).1 token ht
      simp only [Span.stop] at hord
      omega

theorem segments_cons_iff {first : Token} {others : List Token}
    (hfirst : first.span.position = start) :
    Segments start text (first :: others) ↔
      (1 ≤ first.span.length ∧ first.span.stop ≤ text.length ∧
        first.kind.Matches (first.span.slice text) (text.drop first.span.stop)) ∧
      Segments first.span.stop text others := by
  constructor
  · intro hs
    have hord := List.pairwise_cons.1 hs.ordered
    have hin := hs.inside first List.mem_cons_self
    refine ⟨⟨hs.nonempty first List.mem_cons_self, hin.2, hs.lexeme first List.mem_cons_self⟩, ?_⟩
    refine ⟨fun token ht => hs.nonempty token (List.mem_cons_of_mem _ ht), hord.2, ?_, ?_,
      fun token ht => hs.lexeme token (List.mem_cons_of_mem _ ht)⟩
    · intro token ht
      exact ⟨hord.1 token ht, (hs.inside token (List.mem_cons_of_mem _ ht)).2⟩
    · intro i c hi hc hout
      refine hs.blank i c (by simp only [Span.stop] at hi; omega) hc ?_
      intro token ht
      rcases List.mem_cons.1 ht with rfl | ht
      · exact .inr hi
      · exact hout token ht
  · rintro ⟨⟨hpos, hstop, hm⟩, hs⟩
    refine ⟨List.forall_mem_cons.2 ⟨hpos, hs.nonempty⟩, List.pairwise_cons.2 ⟨?_, hs.ordered⟩,
      List.forall_mem_cons.2 ⟨⟨by omega, hstop⟩, ?_⟩, ?_, List.forall_mem_cons.2 ⟨hm, hs.lexeme⟩⟩
    · intro token ht
      exact (hs.inside token ht).1
    · intro token ht
      have hin := hs.inside token ht
      simp only [Span.stop] at hin ⊢
      omega
    · intro i c hi hc hout
      have hfirst := hout first List.mem_cons_self
      refine hs.blank i c (by omega) hc ?_
      intro token ht
      exact hout token (List.mem_cons_of_mem _ ht)

theorem slice_of_drop (h : text.drop start = c :: rest) (more : Nat) :
    Span.slice ⟨start, 1 + more⟩ text = c :: rest.take more := by
  rw [Span.slice, h, Nat.add_comm, List.take_succ_cons]

theorem drop_stop_of_drop (h : text.drop start = c :: rest) (more : Nat) :
    text.drop (start + 1 + more) = rest.drop more := by
  rw [← List.drop_drop, drop_succ_of_drop h]

/-- What is read at an offset is what a token that starts there may stand for. -/
theorem read_eq_ok_iff_of_drop (h : text.drop start = c :: rest) {kind : TokenKind} {more : Nat} :
    Lexeme.read c rest = .ok ⟨kind, more⟩ ↔ start + 1 + more ≤ text.length ∧
      kind.Matches (Span.slice ⟨start, 1 + more⟩ text) (text.drop (start + 1 + more)) := by
  have hlen := length_of_drop h
  rw [slice_of_drop h, drop_stop_of_drop h, Lexeme.read_eq_ok_iff]
  constructor
  · rintro ⟨tail, after, rfl, rfl, hm⟩
    rw [List.length_append] at hlen
    refine ⟨by omega, ?_⟩
    rwa [List.take_left, List.drop_left]
  · rintro ⟨hle, hm⟩
    exact ⟨rest.take more, rest.drop more, (List.take_append_drop more rest).symm,
      List.length_take_of_le (by omega), hm⟩

/-- The first token takes a lexeme at the head of what is left. -/
theorem segments_cons (h : text.drop start = c :: rest) (hb : isBlank c = false) :
    Segments start text tokens ↔ ∃ kind more others, Lexeme.read c rest = .ok ⟨kind, more⟩ ∧
      tokens = ⟨kind, ⟨start, 1 + more⟩⟩ :: others ∧ Segments (start + 1 + more) text others := by
  constructor
  · intro hs
    obtain ⟨⟨kind, position, length⟩, others, rfl, rfl⟩ :=
      hs.exists_first (getElem?_of_drop h) hb
    obtain ⟨⟨hpos, hstop, hm⟩, hs⟩ := (segments_cons_iff rfl).1 hs
    obtain ⟨more, rfl⟩ : ∃ more, length = 1 + more := Nat.exists_eq_add_of_le hpos
    simp only [Span.stop, ← Nat.add_assoc] at hstop hm hs
    exact ⟨kind, more, others, (read_eq_ok_iff_of_drop h).2 ⟨hstop, hm⟩, rfl, hs⟩
  · rintro ⟨kind, more, others, hread, rfl, hs⟩
    obtain ⟨hstop, hm⟩ := (read_eq_ok_iff_of_drop h).1 hread
    have hfirst : (Token.mk kind ⟨start, 1 + more⟩).span.position = start := rfl
    rw [segments_cons_iff hfirst]
    simp only [Span.stop, ← Nat.add_assoc]
    exact ⟨⟨by omega, hstop, hm⟩, hs⟩

/-- A token starts before the end of every token from it on. -/
theorem Segments.position_lt_stop {before others : List Token} {next last : Token}
    (hs : Segments start text (before ++ next :: others)) (hl : last ∈ next :: others) :
    next.span.position < last.span.stop := by
  have hpos := hs.nonempty last (List.mem_append_right before hl)
  simp only [Span.stop]
  rcases List.mem_cons.1 hl with rfl | hl
  · omega
  · have hord := (List.pairwise_cons.1 (List.pairwise_append.1 hs.ordered).2.1).1 last hl
    simp only [Span.stop] at hord
    omega

/-- A text has no tokens if all of it is blank. -/
theorem segments_nil_iff : Segments 0 text [] ↔ ∀ c ∈ text, isBlank c = true := by
  constructor
  · intro hs c hc
    obtain ⟨i, hi⟩ := List.mem_iff_getElem?.1 hc
    exact hs.blank i c (Nat.zero_le i) hi (by simp)
  · intro h
    refine ⟨by simp, .nil, by simp, ?_, by simp⟩
    intro i c _ hi _
    exact h c (List.mem_of_getElem? hi)

end Step

/-! ## Reading all tokens -/

/-- By induction along the reader: it skips a blank, or fails, or takes a lexeme. -/
theorem tokenizeFrom_eq_ok_iff {position : Nat} {text chars : List Char}
    (h : text.drop position = chars) {tokens : List Token} :
    tokenizeFrom position chars = .ok tokens ↔ Segments position text tokens := by
  fun_induction tokenizeFrom position chars generalizing tokens with
  | case1 position =>
    rw [segments_of_drop_nil h, Except.ok.injEq, eq_comm]
  | case2 position c rest hb ih =>
    rw [segments_skip h hb]
    exact ih (drop_succ_of_drop h)
  | case3 position c rest hb fault hread =>
    rw [segments_cons h (by simpa using hb), hread]
    constructor
    · intro he
      contradiction
    · rintro ⟨kind, more, others, he, -⟩
      contradiction
  | case4 position c rest hb kind more hread ih =>
    rw [segments_cons h (by simpa using hb), map_eq_ok_iff]
    constructor
    · rintro ⟨others, ho, rfl⟩
      exact ⟨kind, more, others, hread, rfl, (ih (drop_stop_of_drop h more)).1 ho⟩
    · rintro ⟨kind', more', others, hread', rfl, hs⟩
      obtain ⟨rfl, rfl⟩ := Lexeme.mk.inj (Except.ok.inj (hread.symm.trans hread'))
      exact ⟨others, (ih (drop_stop_of_drop h more)).2 hs, rfl⟩

theorem tokenize_eq_ok_iff {pattern : String} {tokens : List Token} :
    tokenize pattern = .ok tokens ↔ Segments 0 pattern.toList tokens :=
  tokenizeFrom_eq_ok_iff List.drop_zero

theorem tokenize_eq_ok_nil_iff {pattern : String} :
    tokenize pattern = .ok [] ↔ ∀ c ∈ pattern.toList, isBlank c = true :=
  tokenize_eq_ok_iff.trans segments_nil_iff

/-- The tokens of a pattern are those that cut it into lexemes and blanks. A pattern is
    read if it can be cut, which then goes in one way only. -/
theorem tokenize_eq_ok_iff_segments (pattern : String) (tokens : List Token) :
    (tokenize pattern = .ok tokens ↔ Segments 0 pattern.toList tokens) ∧
      ((∃ read, tokenize pattern = .ok read) ↔ ∃! cut, Segments 0 pattern.toList cut) := by
  refine ⟨tokenize_eq_ok_iff, ?_, ?_⟩
  · rintro ⟨read, hread⟩
    refine ⟨read, tokenize_eq_ok_iff.1 hread, fun cut hcut => ?_⟩
    exact Except.ok.inj ((tokenize_eq_ok_iff.2 hcut).symm.trans hread)
  · rintro ⟨cut, hcut, -⟩
    exact ⟨cut, tokenize_eq_ok_iff.2 hcut⟩

end FieldMask
