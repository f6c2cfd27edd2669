import FieldMask.Proofs.Pattern.Faults
import FieldMask.Proofs.Pattern.RoundTrip
import FieldMask.Proofs.Pattern.Segments
import Mathlib.Order.Bounds.Defs

/-!
# The limit on nesting

A lower limit changes nothing, unless it is what stops the compiler: then the
error is at the first opening brace that lies one deeper than the limit. So a
pattern that compiles at all compiles under just the limits that its deepest
brace fits in.

The depth of the selectors counts levels of keys and the limit counts levels of
braces. They differ by one exactly where the deepest braces are empty.

Results:
* `readSiblings_raise`, `buildRoot_raise`: what a higher limit changes.
* `opensAt_root_iff`, `keyAt_root_iff`: at which brace depths braces open and keys
  stand in a pattern.
* `Compiler.compile_limit`: what the limit decides.
-/

namespace FieldMask

open Grammar

/-! ## Brace depth -/

/-- Some token of the wanted kind stands where the brace count, the token itself included,
    is `n`. -/
def StandsAt (wanted : TokenKind → Prop) (n : Int) (kinds : List TokenKind) : Prop :=
  ∃ front kind back, kinds = front ++ kind :: back ∧ wanted kind ∧ braceCount (front ++ [kind]) = n

/-- Some object has brace depth `n`. -/
def OpensAt (n : Int) (kinds : List TokenKind) : Prop := StandsAt (· = .openBrace) n kinds

/-- Some key stands directly in an object of brace depth `n`. -/
def KeyAt (n : Int) (kinds : List TokenKind) : Prop :=
  StandsAt (fun kind => ∃ key, kind = .text key) n kinds

section StandsAt

variable {wanted : TokenKind → Prop} {n : Int}

theorem standsAt_nil : ¬StandsAt wanted n [] := by
  rintro ⟨front, kind, back, h, -⟩
  simp at h

theorem standsAt_cons_iff {first : TokenKind} {rest : List TokenKind} :
    StandsAt wanted n (first :: rest) ↔
      (wanted first ∧ first.weight = n) ∨ StandsAt wanted (n - first.weight) rest := by
  constructor
  · rintro ⟨front, kind, back, h, hw, hn⟩
    cases front with
    | nil =>
      obtain ⟨rfl, rfl⟩ := List.cons.inj h
      exact .inl ⟨hw, by simpa using hn⟩
    | cons head front =>
      obtain ⟨rfl, rfl⟩ := List.cons.inj h
      rw [List.cons_append, braceCount_cons] at hn
      exact .inr ⟨front, kind, back, rfl, hw, by omega⟩
  · rintro (⟨hw, hn⟩ | ⟨front, kind, back, rfl, hw, hn⟩)
    · exact ⟨[], first, rest, rfl, hw, by simpa using hn⟩
    · refine ⟨first :: front, kind, back, rfl, hw, ?_⟩
      rw [List.cons_append, braceCount_cons]
      omega

theorem standsAt_append_iff {front back : List TokenKind} :
    StandsAt wanted n (front ++ back) ↔
      StandsAt wanted n front ∨ StandsAt wanted (n - braceCount front) back := by
  induction front generalizing n with
  | nil => simp [standsAt_nil]
  | cons first front ih =>
    rw [List.cons_append, standsAt_cons_iff, ih, standsAt_cons_iff, braceCount_cons, or_assoc,
      Int.sub_sub]

/-- Below the bound no token stands above it. -/
theorem Shallow.not_standsAt {bound : Int} {kinds : List TokenKind} (h : Shallow bound kinds)
    (hn : bound < n) : ¬StandsAt wanted n kinds := by
  rintro ⟨front, kind, back, rfl, -, hcount⟩
  have hle := h (front.length + 1)
  have htake : (front ++ kind :: back).take (front.length + 1) = front ++ [kind] := by
    rw [List.take_length_add_append]
    rfl
  rw [htake, hcount] at hle
  omega

end StandsAt

/-! ## Raising the limit -/

/-- An object is refused for lying too deep. -/
def TooDeep {α : Type} (outcome : Except PatternError α) : Prop :=
  ∃ span, outcome = .error (Fault.nestedTooDeep.spanning span)

section Raise

variable {lower upper : Nat}

theorem not_tooDeep_ok {α : Type} {a : α} : ¬TooDeep (.ok a) := by
  rintro ⟨span, h⟩
  contradiction

/-- One expression: if a higher limit changes nothing inside it, it changes nothing, unless
    the object in it lies too deep. -/
theorem Reads.raise (hle : lower ≤ upper) {depth : Nat} {tokens : List Token}
    {outcome : Except PatternError (Selector × List Token)} (h : Reads lower depth tokens outcome)
    (ih : ∀ inner : List Token, inner.length < tokens.length →
      readSiblings lower (depth + 1) [] inner = readSiblings upper (depth + 1) [] inner ∨
        TooDeep (readSiblings lower (depth + 1) [] inner)) :
    Reads upper depth tokens outcome ∨ TooDeep outcome := by
  cases h with
  | leaf hk hf => exact .inl (.leaf hk hf)
  | @branch key first colon opening closing inner tail left children hh hd he hc hf =>
    have hinner := ih inner (by simp; omega)
    rw [hc] at hinner
    rcases hinner with hinner | hinner
    · exact .inl (.branch hh (by omega) he hinner.symm hf)
    · exact absurd hinner not_tooDeep_ok
  | noKey h => exact .inl (.noKey h)
  | noSeparator hk h h' => exact .inl (.noSeparator hk h h')
  | noObject hk hc h => exact .inl (.noObject hk hc h)
  | tooDeep hh hd => exact .inr ⟨_, rfl⟩
  | unclosed hh hd h => exact .inl (.unclosed hh (by omega) h)
  | @inside key first colon opening closing inner tail error hh hd he h =>
    have hinner := ih inner (by simp; omega)
    rw [h] at hinner
    rcases hinner with hinner | ⟨span, hinner⟩
    · exact .inl (.inside hh (by omega) he hinner.symm)
    · obtain rfl := Except.error.inj hinner
      exact .inr ⟨span, rfl⟩
  | @noComma key first colon opening closing next inner more children hh hd he hc h =>
    have hinner := ih inner (by simp; omega)
    rw [hc] at hinner
    rcases hinner with hinner | hinner
    · exact .inl (.noComma hh (by omega) he hinner.symm h)
    · exact absurd hinner not_tooDeep_ok

/-- By induction on reading: the first expression is read alike, then the others are. -/
theorem readSiblings_raise (hle : lower ≤ upper) (depth : Nat) (seen : List String)
    (tokens : List Token) :
    readSiblings lower depth seen tokens = readSiblings upper depth seen tokens ∨
      TooDeep (readSiblings lower depth seen tokens) := by
  induction depth, seen, tokens using readSiblings_induct lower with
  | nil depth seen => exact .inl (by rw [readSiblings_nil, readSiblings_nil])
  | fails depth seen first rest error hr hinner =>
    rw [readSiblings_of_error hr]
    rcases hr.raise hle hinner with hu | ⟨span, he⟩
    · exact .inl (readSiblings_of_error hu).symm
    · obtain rfl := Except.error.inj he
      exact .inr ⟨span, rfl⟩
  | repeats depth seen first rest s left hr hs hinner =>
    have hu := (hr.raise hle hinner).resolve_right not_tooDeep_ok
    rw [readSiblings_of_repeated hr hs, readSiblings_of_repeated hu hs]
    exact .inl rfl
  | goes depth seen first rest s left hr hs hinner ih =>
    have hu := (hr.raise hle hinner).resolve_right not_tooDeep_ok
    rw [readSiblings_of_ok hr hs, readSiblings_of_ok hu hs]
    rcases ih with heq | ⟨span, he⟩
    · exact .inl (by rw [heq])
    · exact .inr ⟨span, by rw [he]; rfl⟩

theorem buildRoot_raise (hle : lower ≤ upper) (tokens : List Token) :
    buildRoot lower tokens = buildRoot upper tokens ∨ TooDeep (buildRoot lower tokens) := by
  generalize hb : buildRoot lower tokens = outcome
  cases buildRoot_eq_iff.1 hb with
  | empty => exact .inl (buildRoot_eq_iff.2 .empty).symm
  | unopened h => exact .inl (buildRoot_eq_iff.2 (.unopened h)).symm
  | unclosed ho h => exact .inl (buildRoot_eq_iff.2 (.unclosed ho h)).symm
  | trailing ho he hl => exact .inl (buildRoot_eq_iff.2 (.trailing ho he hl)).symm
  | @inside opening closing inner outcome ho he h =>
    have hinner := readSiblings_raise hle 1 [] inner
    rw [buildObject] at h
    rw [h] at hinner
    rcases hinner with hinner | hdeep
    · exact .inl (buildRoot_eq_iff.2 (.inside ho he hinner.symm)).symm
    · exact .inr hdeep

end Raise

/-- An object that is refused for lying too deep is the first one that lies one deeper than
    the limit. -/
theorem exists_first_tooDeep {limit : Nat} (hl : 1 ≤ limit) {tokens : List Token}
    (hs : InSourceOrder tokens) {span : Span}
    (h : buildRoot limit tokens = .error (Fault.nestedTooDeep.spanning span)) :
    ∃ before opening after, tokens = before ++ opening :: after ∧ opening.kind = .openBrace ∧
      braceCount ((before ++ [opening]).map Token.kind) = limit + 1 ∧
      ¬OpensAt (limit + 1) (before.map Token.kind) ∧ opening.span = span := by
  obtain ⟨c, hc⟩ := exists_refusal hl hs h
  have hinside : c = .inside := hc.eq_ofFault
  subst hinside
  obtain ⟨-, before, opening, after, htokens, -, -, hspan, ho, -, hcount, hshallow⟩ := hc
  exact ⟨before, opening, after, htokens, ho, hcount, hshallow.not_standsAt (by omega), hspan.symm⟩

/-! ## Depths of a derived pattern -/

namespace Selector

/-- The deepest keys lie as deep as the deepest braces, or one level above or below them. -/
theorem nestings_le_depths (selectors : List Selector) :
    nestings selectors ≤ depths selectors ∧ depths selectors ≤ nestings selectors + 1 := by
  induction selectors using Selector.induct with
  | nil =>
    rw [nestings_nil, depths]
    omega
  | leaf key rest ih =>
    rw [nestings_leaf_cons, depths, depth]
    omega
  | branch key children rest ihc ihr =>
    rw [nestings_branch_cons, depths, depth]
    omega

end Selector

/-- Counted from where some tokens start, their objects have the brace depths from one to
    `nesting`, and their keys stand at those from zero to below `depth`. -/
structure Levels (nesting depth : Nat) (kinds : List TokenKind) : Prop where
  opens : ∀ n, OpensAt n kinds ↔ 1 ≤ n ∧ n ≤ nesting
  keys : ∀ n, KeyAt n kinds ↔ 0 ≤ n ∧ n < depth

section Levels

variable {wanted : TokenKind → Prop} {n : Int} {inner front back : List TokenKind}

theorem standsAt_braces_iff (hclose : ¬wanted .closeBrace) :
    StandsAt wanted n (.openBrace :: inner ++ [.closeBrace]) ↔
      (wanted .openBrace ∧ n = 1) ∨ StandsAt wanted (n - 1) inner := by
  rw [List.cons_append, standsAt_cons_iff, standsAt_append_iff, standsAt_cons_iff]
  simp [hclose, standsAt_nil, eq_comm]

theorem standsAt_flat_cons_iff {kind : TokenKind} (hw : ¬wanted kind) (hweight : kind.weight = 0) :
    StandsAt wanted n (kind :: back) ↔ StandsAt wanted n back := by
  rw [standsAt_cons_iff, hweight]
  simp [hw]

theorem standsAt_comma_iff (hcomma : ¬wanted .comma) (hb : Balanced front) :
    StandsAt wanted n (front ++ .comma :: back) ↔
      StandsAt wanted n front ∨ StandsAt wanted n back := by
  have hcount := hb.count_eq
  rw [standsAt_append_iff, standsAt_flat_cons_iff hcomma rfl, hcount]
  simp

theorem opensAt_text_cons_iff {key : String} :
    OpensAt n (.text key :: back) ↔ OpensAt n back :=
  standsAt_flat_cons_iff (by simp) rfl

theorem keyAt_text_cons_iff {key : String} :
    KeyAt n (.text key :: back) ↔ n = 0 ∨ KeyAt n back := by
  rw [KeyAt, standsAt_cons_iff]
  simp [KeyAt, eq_comm]

theorem opensAt_braces_iff :
    OpensAt n (.openBrace :: inner ++ [.closeBrace]) ↔ n = 1 ∨ OpensAt (n - 1) inner := by
  rw [OpensAt, standsAt_braces_iff (by simp)]
  simp [OpensAt]

theorem keyAt_braces_iff :
    KeyAt n (.openBrace :: inner ++ [.closeBrace]) ↔ KeyAt (n - 1) inner := by
  rw [KeyAt, standsAt_braces_iff (by simp)]
  simp [KeyAt]

namespace Levels

theorem nil : Levels 0 0 [] where
  opens := by
    intro n
    have hnone : ¬OpensAt n [] := standsAt_nil
    rw [iff_false_left hnone]
    omega
  keys := by
    intro n
    have hnone : ¬KeyAt n [] := standsAt_nil
    rw [iff_false_left hnone]
    omega

theorem text (key : String) : Levels 0 1 [.text key] where
  opens := by
    intro n
    rw [opensAt_text_cons_iff, nil.opens]
  keys := by
    intro n
    rw [keyAt_text_cons_iff, nil.keys]
    omega

variable {nesting depth nesting' depth' : Nat}

theorem object (h : Levels nesting depth inner) (key : String) :
    Levels (1 + nesting) (1 + depth)
      (.text key :: .colon :: .openBrace :: inner ++ [.closeBrace]) where
  opens := by
    intro n
    rw [List.cons_append, opensAt_text_cons_iff, OpensAt, List.cons_append,
      standsAt_flat_cons_iff (by simp) rfl, ← OpensAt, opensAt_braces_iff, h.opens]
    omega
  keys := by
    intro n
    rw [List.cons_append, keyAt_text_cons_iff, KeyAt, List.cons_append,
      standsAt_flat_cons_iff (by simp) rfl, ← KeyAt, keyAt_braces_iff, h.keys]
    omega

theorem comma (hf : Levels nesting depth front) (hb : Balanced front)
    (h : Levels nesting' depth' back) :
    Levels (max nesting nesting') (max depth depth') (front ++ .comma :: back) where
  opens := by
    intro n
    rw [OpensAt, standsAt_comma_iff (by simp) hb, ← OpensAt, ← OpensAt, hf.opens, h.opens]
    omega
  keys := by
    intro n
    rw [KeyAt, standsAt_comma_iff (by simp) hb, ← KeyAt, ← KeyAt, hf.keys, h.keys]
    omega

end Levels

end Levels

namespace Grammar

mutual

theorem Expression.levels {kinds : List TokenKind} {s : Selector} :
    Expression kinds s → Levels s.nesting s.depth kinds
  | .leaf key => by
    rw [Selector.nesting, Selector.depth]
    exact .text key
  | .branch key siblings => by
    rw [Selector.nesting, Selector.depth]
    exact siblings.levels.object key

/-- Objects lie as deep as the selectors nest, and keys as deep as there are selectors. -/
theorem Siblings.levels {kinds : List TokenKind} {selectors : List Selector} :
    Siblings kinds selectors →
      Levels (Selector.nestings selectors) (Selector.depths selectors) kinds
  | .nil => by
    rw [Selector.nestings, Selector.depths]
    exact .nil
  | @Siblings.last kinds s expression => by
    rw [Selector.nestings, Selector.nestings, Selector.depths, Selector.depths, Nat.max_zero,
      Nat.max_zero]
    exact expression.levels
  | .cons expression siblings => by
    rw [Selector.nestings, Selector.depths]
    exact expression.levels.comma expression.balanced siblings.levels

end

section Root

variable {kinds : List TokenKind} {selectors : List Selector} (h : Root kinds selectors)

include h

theorem opensAt_root_iff {n : Int} :
    OpensAt n kinds ↔ 1 ≤ n ∧ n ≤ (1 + Selector.nestings selectors : Nat) := by
  obtain ⟨inner, rfl, hs⟩ := h
  rw [opensAt_braces_iff, hs.levels.opens]
  omega

theorem keyAt_root_iff {n : Int} : KeyAt n kinds ↔ 1 ≤ n ∧ n ≤ Selector.depths selectors := by
  obtain ⟨inner, rfl, hs⟩ := h
  rw [keyAt_braces_iff, hs.levels.keys]
  omega

/-- The deepest object lies one deeper than the selectors nest. -/
theorem isGreatest_opensAt :
    IsGreatest {n : Int | OpensAt n kinds} (1 + Selector.nestings selectors : Nat) := by
  constructor
  · exact (opensAt_root_iff h).2 (by omega)
  · intro n hn
    exact ((opensAt_root_iff h).1 hn).2

end Root

end Grammar

/-! ## Compiling -/

namespace Compiler

/-- The limit stops the compiler: the error is at the first opening brace of the pattern that
    lies one deeper than the limit. -/
def StoppedByLimit (compiler : Compiler) (pattern : String) : Prop :=
  ∃ before opening after, tokenize pattern = .ok (before ++ opening :: after) ∧
    opening.kind = .openBrace ∧
    braceCount ((before ++ [opening]).map Token.kind) = compiler.maxDepth + 1 ∧
    ¬OpensAt (compiler.maxDepth + 1) (before.map Token.kind) ∧
    compiler.compile pattern = .error ⟨.nestedTooDeep, opening.span, some pattern⟩

section Limit

variable {lower upper : Compiler} {pattern : String}

theorem compile_raise (hle : lower.maxDepth ≤ upper.maxDepth) (pattern : String) :
    lower.compile pattern = upper.compile pattern ∨ StoppedByLimit lower pattern := by
  cases ht : tokenize pattern with
  | error error =>
    have hlower := lower.selectors_of_tokenize_error ht
    have hupper := upper.selectors_of_tokenize_error ht
    exact .inl (by rw [compile, compile, hlower, hupper])
  | ok tokens =>
    have hs : InSourceOrder tokens := (tokenize_eq_ok_iff.1 ht).ordered
    have hraise := buildRoot_raise hle tokens
    have hlower := lower.selectors_of_tokenize ht
    have hupper := upper.selectors_of_tokenize ht
    rcases hraise with heq | ⟨span, hdeep⟩
    · exact .inl (by rw [compile, compile, hlower, hupper, heq])
    · obtain ⟨before, opening, after, rfl, ho, hcount, hfirst, rfl⟩ :=
        exists_first_tooDeep lower.positive hs hdeep
      have hc := compile_eq_error_iff.2 ⟨_, hlower.trans hdeep, rfl⟩
      exact .inr ⟨before, opening, after, ht, ho, hcount, hfirst, hc⟩

theorem compile_eq_ok_of_le {filter : Filter} (hle : lower.maxDepth ≤ upper.maxDepth)
    (h : lower.compile pattern = .ok filter) : upper.compile pattern = .ok filter := by
  rcases compile_raise hle pattern with heq | ⟨_, _, _, -, -, -, -, hstop⟩
  · rwa [heq] at h
  · rw [h] at hstop
    contradiction

/-- Two limits under which a pattern compiles give the same filter. -/
theorem compile_unique {filter found : Filter} (hl : lower.compile pattern = .ok filter)
    (hu : upper.compile pattern = .ok found) : found = filter := by
  rcases Nat.le_total lower.maxDepth upper.maxDepth with hle | hle
  · exact Except.ok.inj (hu.symm.trans (compile_eq_ok_of_le hle hl))
  · exact Except.ok.inj ((compile_eq_ok_of_le hle hu).symm.trans hl)

theorem allowed_iff_le {compiler : Compiler} {selectors : List Selector}
    (hd : Selector.Distinct selectors) :
    Selector.Allowed compiler.maxDepth 1 selectors ↔
      1 + Selector.nestings selectors ≤ compiler.maxDepth := by
  have hpos := compiler.positive
  rw [Selector.allowed_iff]
  constructor
  · rintro ⟨-, hn⟩
    omega
  · intro hle
    exact ⟨hd, .inr hle⟩

/-- A pattern compiles under the limits that its deepest object fits in. -/
theorem compile_eq_ok_iff_le {compiler : Compiler} {filter : Filter}
    (h : compiler.compile pattern = .ok filter) (other : Compiler) (found : Filter) :
    other.compile pattern = .ok found ↔
      1 + Selector.nestings filter.selectors ≤ other.maxDepth ∧ found = filter := by
  obtain ⟨hp, hs⟩ := compile_eq_ok_iff.1 h
  obtain ⟨tokens, ht, hroot, ha⟩ := selectors_eq_ok_iff.1 hs
  constructor
  · intro ho
    obtain rfl := compile_unique h ho
    have hallowed := allowed_of_compile ho
    exact ⟨(allowed_iff_le ha.distinct).1 hallowed, rfl⟩
  · rintro ⟨hle, rfl⟩
    have hallowed := (allowed_iff_le ha.distinct).2 hle
    exact compile_eq_ok_iff.2 ⟨hp, selectors_eq_ok_iff.2 ⟨tokens, ht, hroot, hallowed⟩⟩

end Limit

/-- The limit decides nothing but whether it stops the compiler: under two limits a pattern
    comes to the same, or the lower one stops it at the first brace beyond. So a pattern that
    compiles does so, and to the same filter, under exactly the limits that its deepest object
    fits in. That object lies as deep as the selectors do, or one deeper if it has none in it. -/
theorem compile_limit (pattern : String) :
    (∀ lower upper : Compiler, lower.maxDepth ≤ upper.maxDepth →
      lower.compile pattern = upper.compile pattern ∨ StoppedByLimit lower pattern) ∧
    ∀ (compiler : Compiler) (filter : Filter), compiler.compile pattern = .ok filter →
      ∃ (tokens : List Token) (deepest : Nat), tokenize pattern = .ok tokens ∧
        IsGreatest {n : Int | OpensAt n (tokens.map Token.kind)} deepest ∧
        (∀ other found, Compiler.compile other pattern = .ok found ↔
          deepest ≤ other.maxDepth ∧ found = filter) ∧
        (deepest = Selector.depths filter.selectors ∨
          deepest = Selector.depths filter.selectors + 1) ∧
        (deepest = Selector.depths filter.selectors + 1 ↔
          ¬KeyAt deepest (tokens.map Token.kind)) := by
  refine ⟨fun lower upper hle => compile_raise hle pattern, fun compiler filter h => ?_⟩
  obtain ⟨-, hs⟩ := compile_eq_ok_iff.1 h
  obtain ⟨tokens, ht, hroot, -⟩ := selectors_eq_ok_iff.1 hs
  have hbounds := Selector.nestings_le_depths filter.selectors
  refine ⟨tokens, 1 + Selector.nestings filter.selectors, ht, isGreatest_opensAt hroot,
    compile_eq_ok_iff_le h, by omega, ?_⟩
  rw [keyAt_root_iff hroot]
  omega

theorem compile_limit_empty_braces :
    ∃ pattern filter, Compiler.compile ⟨3, by decide⟩ pattern = .ok filter ∧
      filter.selectors = [.branch "a" [.branch "b" []]] ∧
      StoppedByLimit ⟨2, by decide⟩ pattern ∧
      ∃ tokens, tokenize pattern = .ok tokens ∧
        IsGreatest {n : Int | OpensAt n (tokens.map Token.kind)} 3 ∧
        ¬KeyAt 3 (tokens.map Token.kind) := by
  have hallowed : Selector.Allowed 3 1 [.branch "a" [.branch "b" []]] := by
    rw [Selector.allowed_iff]
    decide
  have hrefused : ¬Selector.Allowed 2 1 [.branch "a" [.branch "b" []]] := by
    rw [Selector.allowed_iff]
    decide
  have hu : Compiler.compile ⟨3, by decide⟩ _ = _ := compile_renderPattern_of_allowed hallowed
  obtain ⟨hraise, hfits⟩ := compile_limit (renderPattern [.branch "a" [.branch "b" []]])
  have hl : Compiler.compile ⟨2, by decide⟩ (renderPattern [.branch "a" [.branch "b" []]]) ≠
      .ok ⟨renderPattern [.branch "a" [.branch "b" []]], [.branch "a" [.branch "b" []]]⟩ :=
    fun h => hrefused (allowed_of_compile h)
  obtain ⟨tokens, deepest, ht, hgreatest, hiff, hcases, hkey⟩ := hfits _ _ hu
  have hdepths : Selector.depths [.branch "a" [.branch "b" []]] = 2 := by decide
  have hdeepest : deepest = 3 := by
    have hbeyond : ¬deepest ≤ 2 := fun hle => hl ((hiff _ _).2 ⟨hle, rfl⟩)
    rw [hdepths] at hcases
    omega
  subst hdeepest
  have hempty := hkey.1 (congrArg (· + 1) hdepths.symm)
  refine ⟨_, _, hu, rfl, ?_, tokens, ht, hgreatest, hempty⟩
  rcases hraise ⟨2, by decide⟩ ⟨3, by decide⟩ (by decide) with heq | hstop
  · exact absurd (heq.trans hu) hl
  · exact hstop

end Compiler

end FieldMask
