import FieldMask.Proofs.Pattern.Reading

/-!
# Reading one expression after another

The siblings of an object can be read in one go, or step by step: one
expression from an index on, then the next from the index behind it, until the
tokens are used up or something is wrong. Each step ends further right and
within the tokens, so the steps come to an end. They read what reading in one go
reads, only that they do not compare keys.

Results:
* `readExpression_eq_ok_iff`, `readNext_eq_some_iff`: an expression ends within the tokens.
* `exists_strides`, `Strides.readAll_eq`: the steps end, and all of them are recorded.
* `Strides.readSiblings_of_distinct`, `Strides.readSiblings_of_repeated`: siblings by
  the steps, without and with a repeated key.
* `strides_buildObject`: what becomes of an object, by the steps over its tokens.
-/

namespace FieldMask

/-! ## Where an expression ends -/

section Ends

variable {limit depth position next : Nat} {first : Token} {rest left tokens : List Token}
  {s : Selector}

/-- An object takes the tokens up to what is left behind it. -/
theorem readObject_of_follows {colon opening closing : Token} {inner tail : List Token}
    {children : List Selector} (ho : opening.kind = .openBrace) (hd : depth + 1 ≤ limit)
    (he : Enclosed inner closing) (hc : readSiblings limit (depth + 1) [] inner = .ok children)
    (hf : Follows tail left) :
    readObject limit depth colon (opening :: (inner ++ closing :: tail)) =
      .ok ⟨children, inner.length + 2 + (tail.length - left.length)⟩ := by
  rw [readObject_of_enclosed ho hd he, hc]
  cases hf with
  | nothing => rfl
  | comma h => simp [Except.bind, h]

/-- An expression takes the tokens that are not left behind it. -/
theorem Reads.readExpression_eq (h : Reads limit depth (first :: rest) (.ok (s, left))) :
    readExpression limit depth first rest = .ok ⟨s, rest.length - left.length⟩ := by
  cases h with
  | leaf hk hf =>
    cases hf with
    | nothing => simp [readExpression_def, hk]
    | comma h => simp [readExpression_def, hk, h]
  | branch hh hd he hc hf =>
    have hle := hf.length_le
    rw [readExpression_def]
    simp only [hh.key_eq, hh.colon_eq]
    rw [readObject_of_follows hh.brace_eq hd he hc hf]
    refine congrArg (fun more => Except.ok (Reading.mk _ more)) ?_
    simp only [List.length_cons, List.length_append]
    omega

theorem readExpression_eq_ok_iff {more : Nat} :
    readExpression limit depth first rest = .ok ⟨s, more⟩ ↔
      more ≤ rest.length ∧ Reads limit depth (first :: rest) (.ok (s, rest.drop more)) := by
  constructor
  · intro h
    have hr : Reads limit depth (first :: rest) (.ok (s, rest.drop more)) := by
      rw [← readFirst_eq_iff, readFirst, h]
      rfl
    obtain ⟨-, hmore⟩ := Reading.mk.inj (Except.ok.inj (hr.readExpression_eq.symm.trans h))
    refine ⟨?_, hr⟩
    omega
  · rintro ⟨hle, hr⟩
    have hlength : rest.length - (rest.drop more).length = more := by
      rw [List.length_drop]
      omega
    rw [hr.readExpression_eq, hlength]

theorem readNext_of_drop_nil (h : tokens.drop position = []) :
    readNext limit depth position tokens = .ok ⟨position, none⟩ := by
  rw [readNext, h]

theorem readNext_of_drop_cons (h : tokens.drop position = first :: rest) :
    readNext limit depth position tokens = (readExpression limit depth first rest).map
      fun reading => ⟨position + 1 + reading.more, some reading.selector⟩ := by
  rw [readNext, h]

/-- One step reads the expression that starts at an index, and ends behind it. -/
theorem readNext_eq_some_iff : readNext limit depth position tokens = .ok ⟨next, some s⟩ ↔
    position < next ∧ next ≤ tokens.length ∧
      Reads limit depth (tokens.drop position) (.ok (s, tokens.drop next)) := by
  cases hd : tokens.drop position with
  | nil =>
    rw [readNext_of_drop_nil hd]
    constructor
    · intro h
      have := (NextExpression.mk.inj (Except.ok.inj h)).2
      contradiction
    · rintro ⟨-, -, hr⟩
      cases hr
  | cons first rest =>
    have hlength := length_of_drop hd
    have hdrop (more : Nat) : rest.drop more = tokens.drop (position + 1 + more) := by
      rw [← drop_succ_of_drop hd, List.drop_drop]
    rw [readNext_of_drop_cons hd, map_eq_ok_iff]
    constructor
    · rintro ⟨⟨t, more⟩, hread, heq⟩
      obtain ⟨hnext, ht⟩ : position + 1 + more = next ∧ some t = some s :=
        NextExpression.mk.inj heq
      obtain rfl := Option.some.inj ht
      obtain ⟨hle, hr⟩ := readExpression_eq_ok_iff.1 hread
      rw [hdrop, hnext] at hr
      exact ⟨by omega, by omega, hr⟩
    · rintro ⟨hlt, hle, hr⟩
      obtain ⟨more, rfl⟩ : ∃ more, next = position + 1 + more := Nat.exists_eq_add_of_le hlt
      rw [← hdrop] at hr
      exact ⟨⟨s, more⟩, readExpression_eq_ok_iff.2 ⟨by omega, hr⟩, rfl⟩

/-- A step reads nothing where no tokens are left. -/
theorem readNext_eq_none_iff : readNext limit depth position tokens = .ok ⟨next, none⟩ ↔
    tokens.length ≤ position ∧ next = position := by
  rw [← List.drop_eq_nil_iff]
  cases hd : tokens.drop position with
  | nil =>
    rw [readNext_of_drop_nil hd]
    simp [eq_comm]
  | cons first rest =>
    rw [readNext_of_drop_cons hd, map_eq_ok_iff]
    simp

theorem readNext_eq_error_iff {error : PatternError} :
    readNext limit depth position tokens = .error error ↔
      Reads limit depth (tokens.drop position) (.error error) := by
  cases hd : tokens.drop position with
  | nil =>
    rw [readNext_of_drop_nil hd]
    constructor
    · intro h
      contradiction
    · intro hr
      cases hr
  | cons first rest =>
    rw [readNext_of_drop_cons hd, map_eq_error_iff, ← readFirst_eq_iff, readFirst, map_eq_error_iff]

end Ends

/-! ## Step by step -/

/-- An expression that was read: the index at which it starts, the one at which reading goes
    on behind it, and its selector. -/
structure Stride where
  start : Nat
  next : Nat
  selector : Selector

namespace Stride

/-- The key that was read. -/
def key (stride : Stride) : String := stride.selector.key

/-- What the step came to. -/
def outcome (stride : Stride) : Except PatternError NextExpression :=
  .ok ⟨stride.next, some stride.selector⟩

end Stride

/-- Reading expression after expression from an index on: what was read, and the index at
    which the tokens were used up, or else the error. -/
inductive Strides (limit depth : Nat) (tokens : List Token) :
    Nat → List Stride → Except PatternError Nat → Prop
  | exhausted {position next : Nat}
      (h : readNext limit depth position tokens = .ok ⟨next, none⟩) :
      Strides limit depth tokens position [] (.ok next)
  | fails {position : Nat} {error : PatternError}
      (h : readNext limit depth position tokens = .error error) :
      Strides limit depth tokens position [] (.error error)
  | goes {position next : Nat} {s : Selector} {strides : List Stride}
      {ending : Except PatternError Nat}
      (h : readNext limit depth position tokens = .ok ⟨next, some s⟩)
      (rest : Strides limit depth tokens next strides ending) :
      Strides limit depth tokens position (⟨position, next, s⟩ :: strides) ending

section Strides

variable {limit depth position : Nat} {tokens : List Token} {strides : List Stride}
  {ending : Except PatternError Nat}

/-- The steps end, since each one ends further right, and within the tokens. -/
theorem exists_strides (limit depth position : Nat) (tokens : List Token) :
    ∃ strides ending, Strides limit depth tokens position strides ending := by
  induction hleft : tokens.length - position using Nat.strongRecOn generalizing position with
  | ind n ih =>
    subst hleft
    cases h : readNext limit depth position tokens with
    | error error => exact ⟨_, _, .fails h⟩
    | ok outcome =>
      obtain ⟨next, selector?⟩ := outcome
      cases selector? with
      | none => exact ⟨_, _, .exhausted h⟩
      | some s =>
        obtain ⟨hlt, hle, -⟩ := readNext_eq_some_iff.1 h
        obtain ⟨strides, ending, hs⟩ := ih (tokens.length - next) (by omega) next rfl
        exact ⟨_, _, .goes h hs⟩

theorem readAll_of_some {next : Nat} {s : Selector}
    (h : readNext limit depth position tokens = .ok ⟨next, some s⟩) :
    readAll limit depth position tokens =
      .ok ⟨next, some s⟩ :: readAll limit depth next tokens := by
  rw [readAll]
  split
  · next heq =>
    obtain ⟨rfl, hs⟩ := NextExpression.mk.inj (Except.ok.inj (heq.symm.trans h))
    rw [Option.some.inj hs]
  · next hno => exact absurd h (hno _ _)

theorem readAll_of_last {outcome : Except PatternError NextExpression}
    (h : readNext limit depth position tokens = outcome)
    (hlast : ∀ next s, outcome ≠ .ok ⟨next, some s⟩) :
    readAll limit depth position tokens = [outcome] := by
  rw [readAll]
  split
  · next heq => exact absurd (h.symm.trans heq) (hlast _ _)
  · rw [h]

/-- Reading all expressions records each step and the last outcome. -/
theorem Strides.readAll_eq (h : Strides limit depth tokens position strides ending) :
    readAll limit depth position tokens =
      strides.map Stride.outcome ++ [ending.map fun next => ⟨next, none⟩] := by
  induction h with
  | exhausted h => exact readAll_of_last h (by simp [Except.map])
  | fails h => exact readAll_of_last h (by simp [Except.map])
  | goes h rest ih =>
    rw [readAll_of_some h, ih]
    rfl

/-- Steps from within the tokens on use up all of them, unless something is wrong. -/
theorem Strides.eq_length (h : Strides limit depth tokens position strides ending)
    (hp : position ≤ tokens.length) {last : Nat} (hl : ending = .ok last) :
    last = tokens.length := by
  induction h with
  | exhausted h =>
    obtain ⟨hle, rfl⟩ := readNext_eq_none_iff.1 h
    obtain rfl := Except.ok.inj hl
    exact Nat.le_antisymm hp hle
  | fails h => contradiction
  | goes h rest ih => exact ih (readNext_eq_some_iff.1 h).2.1 hl

/-! ## In one go -/

/-- The first stride whose key an earlier one has, or is among those seen before. -/
def firstRepeat? (seen : List String) : List Stride → Option Stride
  | [] => none
  | stride :: rest =>
    if stride.key ∈ seen then some stride else firstRepeat? (stride.key :: seen) rest

theorem firstRepeat?_cons (seen : List String) (start next : Nat) (s : Selector)
    (rest : List Stride) : firstRepeat? seen (⟨start, next, s⟩ :: rest) =
      if s.key ∈ seen then some ⟨start, next, s⟩ else firstRepeat? (s.key :: seen) rest := rfl

theorem firstRepeat?_eq_none_iff {seen : List String} : firstRepeat? seen strides = none ↔
    (∀ stride ∈ strides, stride.key ∉ seen) ∧ (strides.map Stride.key).Nodup := by
  induction strides generalizing seen with
  | nil => simp [firstRepeat?]
  | cons stride rest ih =>
    rw [firstRepeat?]
    split
    · next hmem => simp [hmem]
    · next hmem => grind

theorem exists_of_firstRepeat? {seen : List String} {stride : Stride}
    (h : firstRepeat? seen strides = some stride) : ∃ before after,
      strides = before ++ stride :: after ∧ firstRepeat? seen before = none ∧
        (stride.key ∈ seen ∨ stride.key ∈ before.map Stride.key) := by
  induction strides generalizing seen with
  | nil => contradiction
  | cons other rest ih =>
    rw [firstRepeat?] at h
    split at h
    · next hmem =>
      obtain rfl := Option.some.inj h
      exact ⟨[], rest, rfl, rfl, .inl hmem⟩
    · next hmem =>
      obtain ⟨before, after, rfl, hbefore, hkey⟩ := ih h
      refine ⟨other :: before, after, rfl, ?_, ?_⟩
      · rw [firstRepeat?, if_neg hmem, hbefore]
      · grind

theorem Reads.exists_cons {outcome : Except PatternError (Selector × List Token)}
    (h : Reads limit depth tokens outcome) : ∃ first rest, tokens = first :: rest := by
  cases h <;> exact ⟨_, _, rfl⟩

namespace Strides

variable {seen : List String} (h : Strides limit depth tokens position strides ending)

include h

/-- By induction on the steps: while no key repeats, both ways read the same. -/
theorem readSiblings_of_distinct (hr : firstRepeat? seen strides = none) :
    readSiblings limit depth seen (tokens.drop position) =
      ending.map fun _ => strides.map Stride.selector := by
  induction h generalizing seen with
  | exhausted h =>
    rw [List.drop_eq_nil_of_le (readNext_eq_none_iff.1 h).1, readSiblings_nil]
    rfl
  | fails h =>
    have hread := readNext_eq_error_iff.1 h
    obtain ⟨first, rest, hd⟩ := hread.exists_cons
    rw [hd] at hread ⊢
    exact readSiblings_of_error hread
  | @goes position next s strides ending h more ih =>
    obtain ⟨-, -, hread⟩ := readNext_eq_some_iff.1 h
    obtain ⟨first, rest, hd⟩ := hread.exists_cons
    rw [hd] at hread ⊢
    rw [firstRepeat?_cons] at hr
    split at hr
    · contradiction
    · next hs =>
      rw [readSiblings_of_ok hread hs, ih hr]
      cases ending <;> rfl

/-- Reading in one go stops at the first key that repeats, whatever comes behind it. -/
theorem readSiblings_of_repeated {stride : Stride} (hr : firstRepeat? seen strides = some stride) :
    ∃ token, tokens[stride.start]? = some token ∧
      readSiblings limit depth seen (tokens.drop position) =
        .error (Fault.repeatedKey.spanning token.span) := by
  induction h generalizing seen with
  | exhausted h => contradiction
  | fails h => contradiction
  | @goes position next s strides ending h more ih =>
    obtain ⟨-, -, hread⟩ := readNext_eq_some_iff.1 h
    obtain ⟨first, rest, hd⟩ := hread.exists_cons
    rw [hd] at hread ⊢
    rw [firstRepeat?_cons] at hr
    split at hr
    · next hs =>
      obtain rfl := Option.some.inj hr
      exact ⟨first, getElem?_of_drop hd, readSiblings_of_repeated hread hs⟩
    · next hs =>
      obtain ⟨token, ht, herror⟩ := ih hr
      refine ⟨token, ht, ?_⟩
      rw [readSiblings_of_ok hread hs, herror]
      rfl

end Strides

/-- Building an object agrees with reading its expressions step by step. The steps end, with
    an error or at the end of the tokens. If a key repeats, the object is refused at the first
    expression that repeats one, even if a later step fails. Otherwise it comes to what the
    steps came to: their selectors, or their error. -/
theorem strides_buildObject (limit depth : Nat) (tokens : List Token) :
    (∃ strides ending, Strides limit depth tokens 0 strides ending) ∧
    ∀ strides ending, Strides limit depth tokens 0 strides ending →
      readAll limit depth 0 tokens =
        strides.map Stride.outcome ++ [ending.map fun next => ⟨next, none⟩] ∧
      (∀ last, ending = .ok last → last = tokens.length) ∧
      (¬(strides.map Stride.key).Nodup → ∃ before stride after token,
        strides = before ++ stride :: after ∧ (before.map Stride.key).Nodup ∧
        stride.key ∈ before.map Stride.key ∧ tokens[stride.start]? = some token ∧
        buildObject limit depth tokens = .error (Fault.repeatedKey.spanning token.span)) ∧
      ((strides.map Stride.key).Nodup →
        buildObject limit depth tokens = ending.map fun _ => strides.map Stride.selector) := by
  refine ⟨exists_strides limit depth 0 tokens, fun strides ending h => ?_⟩
  refine ⟨h.readAll_eq, fun last => h.eq_length (Nat.zero_le _), fun hn => ?_, fun hn => ?_⟩
  · cases hr : firstRepeat? [] strides with
    | none => exact absurd (firstRepeat?_eq_none_iff.1 hr).2 hn
    | some stride =>
      obtain ⟨before, after, rfl, hbefore, hkey⟩ := exists_of_firstRepeat? hr
      obtain ⟨token, ht, herror⟩ := h.readSiblings_of_repeated hr
      exact ⟨before, stride, after, token, rfl, (firstRepeat?_eq_none_iff.1 hbefore).2,
        hkey.resolve_left List.not_mem_nil, ht, herror⟩
  · exact h.readSiblings_of_distinct (firstRepeat?_eq_none_iff.2 ⟨by simp, hn⟩)

theorem strides_buildObject_repeated :
    let tokens : List Token := [⟨.text "a", ⟨0, 1⟩⟩, ⟨.comma, ⟨1, 1⟩⟩, ⟨.text "a", ⟨2, 1⟩⟩,
      ⟨.comma, ⟨3, 1⟩⟩, ⟨.colon, ⟨4, 1⟩⟩]
    Strides 128 1 tokens 0 [⟨0, 2, .leaf "a"⟩, ⟨2, 4, .leaf "a"⟩]
      (.error ((Fault.unexpectedToken .key).spanning ⟨4, 1⟩)) ∧
    buildObject 128 1 tokens = .error (Fault.repeatedKey.spanning ⟨2, 1⟩) := by
  intro tokens
  have hfirst : readNext 128 1 0 tokens = .ok ⟨2, some (.leaf "a")⟩ :=
    readNext_eq_some_iff.2 ⟨by decide, by decide, .leaf rfl (.comma rfl)⟩
  have hsecond : readNext 128 1 2 tokens = .ok ⟨4, some (.leaf "a")⟩ :=
    readNext_eq_some_iff.2 ⟨by decide, by decide, .leaf rfl (.comma rfl)⟩
  have hlast : readNext 128 1 4 tokens =
      .error ((Fault.unexpectedToken .key).spanning ⟨4, 1⟩) :=
    readNext_eq_error_iff.2 (.noKey (by simp))
  have h : Strides 128 1 tokens 0 _ _ := .goes hfirst (.goes hsecond (.fails hlast))
  obtain ⟨-, -, hrepeated, -⟩ := (strides_buildObject 128 1 tokens).2 _ _ h
  obtain ⟨before, stride, after, token, hsplit, -, hkey, ht, hbuild⟩ :=
    hrepeated (by simp [Stride.key])
  match before with
  | [] => simp at hkey
  | [other] =>
    obtain ⟨-, rfl, -⟩ : _ ∧ _ ∧ _ := by simpa using hsplit
    obtain rfl := Option.some.inj ht
    exact ⟨h, hbuild⟩
  | _ :: _ :: _ => simp at hsplit

end Strides

end FieldMask
