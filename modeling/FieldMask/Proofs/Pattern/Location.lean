import FieldMask.Filter.Compiler
import FieldMask.Pattern.Report
import FieldMask.Proofs.Pattern.Stops

/-!
# Errors locate text

The span of an error covers text of the pattern, from a character that is not
blank to one that is not blank. Only for a pattern without tokens is there
nothing to cover.

Spans come from three places. The lexer reports the character at which it
stops. Inside an object, an error is about a token. What stands behind the root
object is reported as one region, from its first token to the last token of the
pattern. As tokens cut the pattern, the length of that region can be computed,
and it covers text like its first and last token do.

Results:
* `readSiblings_about`: whatever is wrong inside an object is reported at one of
  its tokens.
* `selectors_sited`: where an error of tokenizing or building is.
* `Compiler.compile_locates`: the error of a pattern locates text of it.
-/

namespace FieldMask

/-! ## Spans that cover text -/

/-- A span covers a part of a text, which neither starts nor ends with a blank. -/
structure Span.Covers (span : Span) (text : List Char) : Prop where
  nonempty : 1 ≤ span.length
  inside : span.stop ≤ text.length
  head_visible : ∀ c ∈ (span.slice text).head?, isBlank c = false
  last_visible : ∀ c ∈ (span.slice text).getLast?, isBlank c = false

section Covers

variable {start : Nat} {text : List Char} {tokens : List Token}

theorem Segments.covers (hs : Segments start text tokens) {token : Token} (ht : token ∈ tokens) :
    token.span.Covers text where
  nonempty := hs.nonempty token ht
  inside := (hs.inside token ht).2
  head_visible := (hs.lexeme token ht).head_visible
  last_visible := (hs.lexeme token ht).last_visible

/-- A region covers text if the spans at its ends do. -/
theorem Span.Covers.through {first last : Span} (hf : first.Covers text) (hl : last.Covers text)
    (h : first.position < last.stop) : (first.through last).Covers text := by
  have hstop : (first.through last).stop = last.stop := Span.stop_through (Nat.le_of_lt h)
  have hpos : 1 ≤ (first.through last).length := by
    simp only [Span.through]
    omega
  have hle : (first.through last).stop ≤ text.length := hstop ▸ hl.inside
  refine ⟨hpos, hle, ?_, ?_⟩
  · rw [Span.head?_slice hpos]
    have hhead := hf.head_visible
    rwa [Span.head?_slice hf.nonempty] at hhead
  · rw [Span.getLast?_slice hpos hle, hstop]
    have hlast := hl.last_visible
    rwa [Span.getLast?_slice hl.nonempty hl.inside] at hlast

end Covers

/-! ## Errors of the lexer -/

/-- A fault of the lexer, or inside an object: neither of those of the pattern as a whole. -/
def Fault.Local (fault : Fault) : Prop :=
  fault ≠ .emptyPattern ∧ fault ≠ .trailingText

theorem Stops.isLocal {c : Char} {rest : List Char} {fault : Fault} (h : Stops c rest fault) :
    fault.Local := by
  cases h with
  | stray => exact ⟨by decide, by decide⟩
  | unclosed => exact ⟨by decide, by decide⟩

/-- The lexer stops at a character that is not blank. -/
theorem tokenize_eq_error {pattern : String} {error : PatternError}
    (he : tokenize pattern = .error error) : ∃ (fault : Fault) (span : Span),
      error = fault.spanning span ∧ fault.Local ∧ span.Covers pattern.toList := by
  obtain ⟨before, c, after, fault, hsplit, -, hstops, rfl⟩ := tokenizeFrom_eq_error_iff.1 he
  rw [Nat.zero_add]
  have hdrop : pattern.toList.drop before.length = c :: after := by simp [hsplit]
  have hslice : Span.slice ⟨before.length, 1⟩ pattern.toList = [c] := slice_of_drop hdrop 0
  have hlen := length_of_drop hdrop
  refine ⟨fault, _, rfl, hstops.isLocal, Nat.le_refl 1, ?_, ?_, ?_⟩
  · simp only [Span.stop]
    omega
  · simpa [hslice] using hstops.isBlank_eq_false
  · simpa [hslice] using hstops.isBlank_eq_false

/-! ## Errors of the builder -/

/-- An error about one of some tokens. -/
def AboutToken (tokens : List Token) (error : PatternError) : Prop :=
  ∃ token ∈ tokens, ∃ fault : Fault, fault.Local ∧ error = fault.spanning token.span

theorem AboutToken.mono {tokens more : List Token} {error : PatternError}
    (h : AboutToken tokens error) (hsub : tokens ⊆ more) : AboutToken more error := by
  obtain ⟨token, ht, fault, hf, rfl⟩ := h
  exact ⟨token, hsub ht, fault, hf, rfl⟩

section Builder

variable {limit depth : Nat} {tokens : List Token} {error : PatternError}

/-- An expression is refused for a token of it, or of the object inside it. -/
theorem Reads.about (h : Reads limit depth tokens (.error error))
    (ih : ∀ inner : List Token, inner.length < tokens.length →
      readSiblings limit (depth + 1) [] inner = .error error → AboutToken inner error) :
    AboutToken tokens error := by
  cases h with
  | inside hh hd he hi => exact (ih _ (by simp; omega) hi).mono fun token ht => by simp [ht]
  | _ => exact ⟨_, by simp, _, ⟨by simp, by simp⟩, rfl⟩

/-- By induction on reading: what is wrong is in the first expression, or at its key, or
    behind it. -/
theorem readSiblings_about {seen : List String}
    (h : readSiblings limit depth seen tokens = .error error) : AboutToken tokens error := by
  induction depth, seen, tokens using readSiblings_induct limit with
  | nil depth seen => simp at h
  | fails depth seen first rest fault hr hinner =>
    rw [readSiblings_of_error hr] at h
    obtain rfl := Except.error.inj h
    exact hr.about hinner
  | repeats depth seen first rest s left hr hs hinner =>
    rw [readSiblings_of_repeated hr hs] at h
    obtain rfl := Except.error.inj h
    exact ⟨first, List.mem_cons_self, _, ⟨by simp, by simp⟩, rfl⟩
  | goes depth seen first rest s left hr hs hinner ih =>
    rw [readSiblings_of_ok hr hs, map_eq_error_iff] at h
    exact (ih h).mono hr.left_subset

end Builder

/-! ## Where an error is -/

/-- Where the error of a pattern is: nowhere, at a part of the pattern, or in all that stands
    behind the root object. -/
inductive Sited (pattern : String) : PatternError → Prop
  | nowhere (h : tokenize pattern = .ok []) : Sited pattern (Fault.emptyPattern.spanning ⟨0, 0⟩)
  | part {fault : Fault} {span : Span} (hf : fault.Local) (hc : span.Covers pattern.toList) :
      Sited pattern (fault.spanning span)
  | region {before others : List Token} {next last : Token}
      (h : tokenize pattern = .ok (before ++ next :: others))
      (hl : (next :: others).getLast? = some last) :
      Sited pattern (Fault.trailingText.spanning (next.span.through last.span))

section Sited

variable {pattern : String} {error : PatternError}

theorem AboutToken.sited {tokens : List Token} (h : AboutToken tokens error)
    (ht : tokenize pattern = .ok tokens) : Sited pattern error := by
  obtain ⟨token, hmem, fault, hf, rfl⟩ := h
  exact .part hf ((tokenize_eq_ok_iff.1 ht).covers hmem)

theorem buildRoot_sited {limit : Nat} {tokens : List Token} (ht : tokenize pattern = .ok tokens)
    (h : buildRoot limit tokens = .error error) : Sited pattern error := by
  have hcovers : ∀ token ∈ tokens, token.span.Covers pattern.toList :=
    fun token hmem => (tokenize_eq_ok_iff.1 ht).covers hmem
  cases buildRoot_eq_iff.1 h with
  | empty => exact .nowhere ht
  | unopened => exact .part ⟨by decide, by decide⟩ (hcovers _ List.mem_cons_self)
  | unclosed => exact .part ⟨by decide, by decide⟩ (hcovers _ List.mem_cons_self)
  | inside ho he h =>
    refine ((readSiblings_about h).mono fun token hmem => ?_).sited ht
    simp [hmem]
  | @trailing opening closing next last inner others ho he hlast =>
    rw [cons_append_closing] at ht
    exact .region ht hlast

theorem selectors_sited {compiler : Compiler} (h : compiler.selectors pattern = .error error) :
    Sited pattern error := by
  cases ht : tokenize pattern with
  | error e =>
    rw [compiler.selectors_of_tokenize_error ht] at h
    obtain rfl := Except.error.inj h
    obtain ⟨fault, span, rfl, hf, hc⟩ := tokenize_eq_error ht
    exact .part hf hc
  | ok tokens =>
    rw [compiler.selectors_of_tokenize ht] at h
    exact buildRoot_sited ht h

end Sited

/-! ## The text that an error locates -/

/-- A text is a pattern with colours around the characters of a span, and nothing else
    changed. Neither the first nor the last coloured character is blank. -/
def Coloured (pattern : String) (span : Span) (text : String) : Prop :=
  ∃ before covered after : List Char, pattern = String.ofList (before ++ covered ++ after) ∧
    before.length = span.position ∧ covered.length = span.length ∧
    text = String.ofList before ++ "\x1b[31;47;1m" ++ String.ofList covered ++ "\x1b[0m" ++
      String.ofList after ∧
    (∀ c ∈ covered.head?, isBlank c = false) ∧ ∀ c ∈ covered.getLast?, isBlank c = false

/-- A span goes from the start of a token of the pattern to the end of the last token, which is
    behind the start. -/
def Region (pattern : String) (span : Span) : Prop :=
  ∃ tokens next last, tokenize pattern = .ok tokens ∧ next ∈ tokens ∧
    tokens.getLast? = some last ∧ next.span.position < last.span.stop ∧
    span = next.span.through last.span

/-- An error locates text of the pattern it carries. -/
structure PatternError.Locates (error : PatternError) (pattern : String) : Prop where
  /-- The error carries the whole pattern. -/
  pattern_eq : error.pattern = some pattern
  /-- The span lies in the pattern. -/
  stop_le : error.span.stop ≤ pattern.length
  /-- The span covers something, unless there is no token to cover. -/
  length_pos : error.fault ≠ .emptyPattern → 1 ≤ error.span.length
  /-- The length of the region behind the root object is a difference above zero. -/
  region : error.fault = .trailingText → Region pattern error.span
  /-- The colours stand around the span. -/
  highlight_eq : ∃ text, error.highlight = some text ∧ Coloured pattern error.span text

section Locates

variable {pattern : String} {error : PatternError}

theorem Span.exists_split {span : Span} {text : List Char} (h : span.stop ≤ text.length) :
    ∃ before after, text = before ++ span.slice text ++ after ∧
      before.length = span.position := by
  have hposition : span.position ≤ span.stop := Nat.le_add_right _ _
  refine ⟨text.take span.position, text.drop span.stop, ?_, ?_⟩
  · rw [Span.slice, Span.stop, ← List.drop_drop, List.append_assoc, List.take_append_drop,
      List.take_append_drop]
  · rw [List.length_take]
    omega

/-- Colouring a span that lies in the pattern cuts nothing off. -/
theorem coloured_highlightSpan {span : Span} (h : span.stop ≤ pattern.toList.length)
    (hhead : ∀ c ∈ (span.slice pattern.toList).head?, isBlank c = false)
    (hlast : ∀ c ∈ (span.slice pattern.toList).getLast?, isBlank c = false) :
    Coloured pattern span (highlightSpan pattern span) := by
  have hcovered := Span.length_slice h
  obtain ⟨before, after, hsplit, hbefore⟩ := Span.exists_split h
  have hpattern : pattern = String.ofList (before ++ span.slice pattern.toList ++ after) := by
    rw [← hsplit, String.ofList_toList]
  have hspan : (⟨before.length, (span.slice pattern.toList).length⟩ : Span) = span := by
    rw [hbefore, hcovered]
  refine ⟨before, _, after, hpattern, hbefore, hcovered, ?_, hhead, hlast⟩
  have hcolour := highlightSpan_eq before (span.slice pattern.toList) after
  rwa [hspan, ← hpattern] at hcolour

/-- Wherever an error is: if its span covers text, it locates the text. -/
theorem Span.Covers.locates {fault : Fault} {span : Span} (hc : span.Covers pattern.toList)
    (hr : fault = .trailingText → Region pattern span) :
    ((fault.spanning span).withPattern pattern).Locates pattern where
  pattern_eq := rfl
  stop_le := String.length_toList ▸ hc.inside
  length_pos := fun _ => hc.nonempty
  region := hr
  highlight_eq := ⟨_, rfl, coloured_highlightSpan hc.inside hc.head_visible hc.last_visible⟩

theorem Sited.locates (h : Sited pattern error) : (error.withPattern pattern).Locates pattern := by
  cases h with
  | nowhere h =>
    exact {
      pattern_eq := rfl
      stop_le := Nat.zero_le _
      length_pos := fun hf => absurd rfl hf
      region := fun hf => nomatch hf
      highlight_eq := ⟨_, rfl, coloured_highlightSpan (Nat.zero_le _) nofun nofun⟩ }
  | part hf hc => exact hc.locates fun ht => absurd ht hf.2
  | @region before others next last h hl =>
    have hs := tokenize_eq_ok_iff.1 h
    have hlast : last ∈ next :: others := List.mem_of_getLast? hl
    have hlt := hs.position_lt_stop hlast
    have hnext := hs.covers (List.mem_append_right before List.mem_cons_self)
    have hc := hnext.through (hs.covers (List.mem_append_right before hlast)) hlt
    refine hc.locates fun _ => ⟨_, next, last, h, by simp, ?_, hlt, rfl⟩
    rw [List.getLast?_append, hl]
    rfl

/-- A pattern is reported to have no tokens only if it has none. -/
theorem Sited.blank (h : Sited pattern error) (hf : error.fault = .emptyPattern) :
    ∀ c ∈ pattern.toList, isBlank c = true := by
  cases h with
  | nowhere h => exact tokenize_eq_ok_nil_iff.1 h
  | part hl hc => exact absurd hf hl.1
  | region h hl => contradiction

end Locates

namespace Compiler

variable {compiler : Compiler} {pattern : String}

theorem selectors_of_blank (h : ∀ c ∈ pattern.toList, isBlank c = true) :
    compiler.selectors pattern = .error (Fault.emptyPattern.spanning ⟨0, 0⟩) := by
  rw [compiler.selectors_of_tokenize (tokenize_eq_ok_nil_iff.2 h)]
  rfl

/-- The error of a pattern locates text of it. The error that a pattern has no tokens is
    returned for the blank patterns and for no others. -/
theorem compile_locates (compiler : Compiler) (pattern : String) :
    (∀ error, compiler.compile pattern = .error error → error.Locates pattern) ∧
      ((∃ error, compiler.compile pattern = .error error ∧ error.fault = .emptyPattern) ↔
        ∀ c ∈ pattern.toList, isBlank c = true) := by
  refine ⟨?_, ?_, ?_⟩
  · intro error h
    obtain ⟨found, hfound, rfl⟩ := compile_eq_error_iff.1 h
    exact (selectors_sited hfound).locates
  · rintro ⟨error, h, hf⟩
    obtain ⟨found, hfound, rfl⟩ := compile_eq_error_iff.1 h
    exact (selectors_sited hfound).blank hf
  · intro h
    exact ⟨_, compile_eq_error_iff.2 ⟨_, selectors_of_blank h, rfl⟩, rfl⟩

theorem compile_locates_trailingText :
    standard.compile "\x7b\x7d \"\u00e9\", " =
        .error ⟨.trailingText, ⟨3, 4⟩, some "\x7b\x7d \"\u00e9\", "⟩ ∧
      PatternError.Locates ⟨.trailingText, ⟨3, 4⟩, some "\x7b\x7d \"\u00e9\", "⟩
        "\x7b\x7d \"\u00e9\", " := by
  have htokens : tokenize "\x7b\x7d \"\u00e9\", " = .ok [⟨.openBrace, ⟨0, 1⟩⟩,
      ⟨.closeBrace, ⟨1, 1⟩⟩, ⟨.text "\u00e9", ⟨3, 3⟩⟩, ⟨.comma, ⟨6, 1⟩⟩] := by
    show tokenizeFrom 0 ['\x7b', '\x7d', ' ', '\"', '\u00e9', '\"', ',', ' '] = _
    rw [tokenizeFrom_cons_of_ok rfl rfl, List.drop_zero, tokenizeFrom_cons_of_ok rfl rfl,
      List.drop_zero, tokenizeFrom_cons_of_isBlank rfl, tokenizeFrom_cons_of_ok rfl rfl]
    show Except.map _ (Except.map _ (Except.map _ (tokenizeFrom 6 [',', ' ']))) = _
    rw [tokenizeFrom_cons_of_ok rfl rfl, List.drop_zero, tokenizeFrom_cons_of_isBlank rfl,
      tokenizeFrom_nil]
    rfl
  have h : standard.compile "\x7b\x7d \"\u00e9\", " =
      .error ⟨.trailingText, ⟨3, 4⟩, some "\x7b\x7d \"\u00e9\", "⟩ := by
    refine compile_eq_error_iff.2 ⟨Fault.trailingText.spanning ⟨3, 4⟩, ?_, rfl⟩
    rw [selectors, htokens]
    rfl
  exact ⟨h, (compile_locates standard _).1 _ h⟩

end Compiler

end FieldMask
