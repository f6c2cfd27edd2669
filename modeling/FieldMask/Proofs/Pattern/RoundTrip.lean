import FieldMask.Filter.Compiler
import FieldMask.Pattern.Printer
import FieldMask.Proofs.Pattern.Acceptance
import FieldMask.Proofs.Text.Quoted

/-!
# Writing selectors and compiling them

The pattern written for some selectors compiles to these selectors again. Its
characters are read as tokens piece by piece: a piece that spells some tokens
spells them in front of any other text. The tokens of a written list of
siblings are derived from the siblings, so the builder accepts them.

Results:
* `tokenize_renderPattern`: the tokens of a written pattern.
* `compile_renderPattern`: every list of selectors with distinct keys is
  expressible, under every limit that has room for it.
-/

namespace FieldMask

open Grammar

/-! ## Pieces of text -/

/-- Whatever follows the text, its characters are read as tokens of these kinds. -/
def Spells (text : List Char) (kinds : List TokenKind) : Prop :=
  ∀ position rest, ∃ tokens : List Token, tokens.map Token.kind = kinds ∧
    tokenizeFrom position (text ++ rest) =
      (tokenizeFrom (position + text.length) rest).map (tokens ++ ·)

theorem spells_nil : Spells [] [] := by
  intro position rest
  refine ⟨[], rfl, ?_⟩
  cases h : tokenizeFrom position rest <;> simp [h, Except.map]

theorem Spells.append {front back : List Char} {fronts backs : List TokenKind}
    (hf : Spells front fronts) (hb : Spells back backs) :
    Spells (front ++ back) (fronts ++ backs) := by
  intro position rest
  obtain ⟨first, rfl, hfirst⟩ := hf position (back ++ rest)
  obtain ⟨second, rfl, hsecond⟩ := hb (position + front.length) rest
  refine ⟨first ++ second, List.map_append, ?_⟩
  rw [List.append_assoc, hfirst, hsecond, List.length_append, ← Nat.add_assoc]
  cases tokenizeFrom (position + front.length + back.length) rest <;> simp [Except.map]

/-- A token that takes some characters spells its kind. -/
theorem spells_of_read {c : Char} {text : List Char} {kind : TokenKind} (hb : isBlank c = false)
    (h : ∀ rest, Lexeme.read c (text ++ rest) = .ok ⟨kind, text.length⟩) :
    Spells (c :: text) [kind] := by
  intro position rest
  refine ⟨[⟨kind, ⟨position, 1 + text.length⟩⟩], rfl, ?_⟩
  rw [List.cons_append, tokenizeFrom_cons_of_ok hb (h rest), List.drop_left, List.length_cons,
    Nat.add_comm text.length 1, Nat.add_assoc]
  rfl

theorem spells_structural {c : Char} {kind : TokenKind} (h : TokenKind.structural? c = some kind) :
    Spells [c] [kind] := by
  have hc : c = '\x7b' ∨ c = '\x7d' ∨ c = ',' ∨ c = ':' := by
    unfold TokenKind.structural? at h
    split at h <;> simp_all
  refine spells_of_read ?_ fun rest => ?_
  · rcases hc with rfl | rfl | rfl | rfl <;> decide
  · have hq : c ≠ '\"' := by rcases hc with rfl | rfl | rfl | rfl <;> decide
    rw [Lexeme.read, if_neg hq, h]
    rfl

/-- A quoted key is read up to its closing quote. -/
theorem spells_quote (key : String) : Spells (Quoted.quote key.toList) [.text key] := by
  have hq : Quoted.quote key.toList = '\"' :: (Quoted.escape key.toList ++ ['\"']) := rfl
  rw [hq]
  refine spells_of_read (by decide) fun rest => ?_
  rw [Lexeme.read, if_pos rfl, Lexeme.ofQuoted, List.append_assoc, List.singleton_append,
    Quoted.closingQuote?_escape]
  simp [Quoted.unescape_escape]

/-! ## Written selectors -/

theorem spells_render_branch {key : String} {children : List Selector} {kinds : List TokenKind}
    (h : Spells (Selector.renderSiblings children) kinds) :
    Spells (Selector.branch key children).render
      (.text key :: .colon :: .openBrace :: kinds ++ [.closeBrace]) := by
  have hopen := (spells_structural (c := ':') rfl).append (spells_structural (c := '\x7b') rfl)
  have hclose := h.append (spells_structural (c := '\x7d') rfl)
  have hall := (spells_quote key).append (hopen.append hclose)
  rw [Selector.render]
  simpa using hall

/-- Siblings with a comma between the first and the others, if there are any. -/
theorem spells_renderSiblings_cons {s : Selector} {rest : List Selector}
    {first others : List TokenKind} (hf : Spells s.render first) (hx : Expression first s)
    (ho : Spells (Selector.renderSiblings rest) others) (hs : Siblings others rest) :
    ∃ kinds, Spells (Selector.renderSiblings (s :: rest)) kinds ∧ Siblings kinds (s :: rest) := by
  cases rest with
  | nil =>
    rw [Selector.renderSiblings]
    exact ⟨first, hf, .last hx⟩
  | cons t rest =>
    have hcomma := (spells_structural (c := ',') rfl).append ho
    rw [Selector.renderSiblings]
    exact ⟨first ++ .comma :: others, hf.append hcomma, .cons hx hs⟩

/-- Written siblings spell tokens from which they are derived. -/
theorem renderSiblings_spells (selectors : List Selector) :
    ∃ kinds, Spells (Selector.renderSiblings selectors) kinds ∧ Siblings kinds selectors := by
  induction selectors using Selector.induct with
  | nil =>
    rw [Selector.renderSiblings]
    exact ⟨[], spells_nil, .nil⟩
  | leaf key rest ih =>
    obtain ⟨others, ho, hs⟩ := ih
    have hf : Spells (Selector.leaf key).render [.text key] := by
      rw [Selector.render]
      exact spells_quote key
    exact spells_renderSiblings_cons hf (.leaf key) ho hs
  | branch key children rest ihc ihr =>
    obtain ⟨kinds, hc, hx⟩ := ihc
    obtain ⟨others, ho, hs⟩ := ihr
    exact spells_renderSiblings_cons (spells_render_branch hc) (.branch key hx) ho hs

theorem tokenize_renderPattern (selectors : List Selector) :
    ∃ tokens, tokenize (renderPattern selectors) = .ok tokens ∧
      Root (tokens.map Token.kind) selectors := by
  obtain ⟨kinds, hk, hs⟩ := renderSiblings_spells selectors
  have hall := (spells_structural (c := '\x7b') rfl).append
    (hk.append (spells_structural (c := '\x7d') rfl))
  obtain ⟨tokens, ht, hall⟩ := hall 0 []
  refine ⟨tokens, ?_, kinds, ht, hs⟩
  rw [tokenize, renderPattern, String.toList_ofList]
  simpa [Except.map] using hall

/-! ## Compiling -/

namespace Compiler

theorem selectors_eq_ok_iff {compiler : Compiler} {pattern : String} {selectors : List Selector} :
    compiler.selectors pattern = .ok selectors ↔ ∃ tokens, tokenize pattern = .ok tokens ∧
      Root (tokens.map Token.kind) selectors ∧
      Selector.Allowed compiler.maxDepth 1 selectors := by
  cases ht : tokenize pattern with
  | error error => simp [compiler.selectors_of_tokenize_error ht]
  | ok tokens => simp [compiler.selectors_of_tokenize ht, buildRoot_eq_ok_iff_root]

/-- The selectors of a filter may stand in a root object. -/
theorem allowed_of_compile {compiler : Compiler} {pattern : String} {filter : Filter}
    (h : compiler.compile pattern = .ok filter) :
    Selector.Allowed compiler.maxDepth 1 filter.selectors := by
  obtain ⟨-, hs⟩ := compile_eq_ok_iff.1 h
  obtain ⟨tokens, -, -, ha⟩ := selectors_eq_ok_iff.1 hs
  exact ha

theorem compile_renderPattern_of_allowed {compiler : Compiler} {selectors : List Selector}
    (h : Selector.Allowed compiler.maxDepth 1 selectors) :
    compiler.compile (renderPattern selectors) = .ok ⟨renderPattern selectors, selectors⟩ := by
  obtain ⟨tokens, ht, hr⟩ := tokenize_renderPattern selectors
  exact compile_eq_ok_iff.2 ⟨rfl, selectors_eq_ok_iff.2 ⟨tokens, ht, hr, h⟩⟩

/-- Compiling undoes writing: every list of selectors with distinct keys at every
    level is what its written pattern compiles to under each limit with room for it,
    so what any pattern compiles to can be written and compiled again. -/
theorem compile_renderPattern (compiler : Compiler) :
    (∀ selectors, Selector.Distinct selectors →
      1 + Selector.nestings selectors ≤ compiler.maxDepth →
      compiler.compile (renderPattern selectors) = .ok ⟨renderPattern selectors, selectors⟩) ∧
    ∀ pattern filter, compiler.compile pattern = .ok filter →
      compiler.compile (renderPattern filter.selectors) =
        .ok ⟨renderPattern filter.selectors, filter.selectors⟩ := by
  constructor
  · intro selectors hd hn
    exact compile_renderPattern_of_allowed (Selector.allowed_iff.2 ⟨hd, .inr hn⟩)
  · intro pattern filter h
    exact compile_renderPattern_of_allowed (allowed_of_compile h)

theorem compile_renderPattern_escapes :
    ∃ pattern filter, standard.compile pattern = .ok filter ∧
      filter.selectors = [.leaf "", .branch "a\"\\\x7d\n" []] ∧
      standard.compile (renderPattern filter.selectors) =
        .ok ⟨renderPattern filter.selectors, filter.selectors⟩ := by
  have h := (compile_renderPattern standard).1 [.leaf "", .branch "a\"\\\x7d\n" []]
    (by decide) (by decide)
  exact ⟨_, _, h, rfl, (compile_renderPattern standard).2 _ _ h⟩

end Compiler

end FieldMask
