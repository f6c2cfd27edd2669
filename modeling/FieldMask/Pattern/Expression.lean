import FieldMask.Pattern.Brace
import FieldMask.Pattern.Error
import FieldMask.Selector.Basic

/-!
# From tokens to selectors

The tokens between the braces of an object are expressions separated by
commas; a comma after the last one may stand. An expression is a key, which
selects the key's whole value, or a key, a colon and an object, which selects
inside the value. A nested object is cut out at its closing brace and read by
itself, one level deeper.

No two siblings may have the same key, and an object may not nest deeper than
the limit, where the root object has depth one.

How the objects inside are built is left open at first. To build them in the same
way, one level deeper, makes the builder; the depth of a level is counted either
without an end or in words. An object inside has fewer tokens than the one around
it, so building ends either way.

Results:
* `readNext_progress`: reading an expression starts inside the tokens and moves
  on, so reading one after another ends.
-/

namespace FieldMask

/-- An expression read from the head of some tokens: its selector, and how many
    tokens it takes after the first one, the comma behind it included. -/
structure Reading where
  selector : Selector
  more : Nat
  deriving DecidableEq, Repr

/-- The object after a colon: the selectors in it, and how many tokens it takes,
    the comma behind it included. -/
structure ObjectReading where
  children : List Selector
  taken : Nat
  deriving DecidableEq, Repr

/-- `inner` are tokens that stand behind an opening brace in `tokens`. -/
def Within (inner tokens : List Token) : Prop :=
  ∃ opening : Token, opening.kind = .openBrace ∧ opening :: inner <:+: tokens

theorem Within.length_lt {inner tokens : List Token} (h : Within inner tokens) :
    inner.length < tokens.length := by
  obtain ⟨opening, -, h⟩ := h
  exact h.length_le

theorem Within.mono {inner part tokens : List Token} (h : Within inner part)
    (hp : part <:+: tokens) : Within inner tokens := by
  obtain ⟨opening, ho, h⟩ := h
  exact ⟨opening, ho, h.trans hp⟩

theorem within_take {opening : Token} (h : opening.kind = .openBrace) (inner : List Token)
    (n : Nat) : Within (inner.take n) (opening :: inner) :=
  ⟨opening, h, (List.take_prefix (n + 1) (opening :: inner)).isInfix⟩

/-- What builds the objects inside some tokens, each from the tokens between its braces. -/
abbrev InnerBuilder (m : Type → Type) (tokens : List Token) :=
  (inner : List Token) → Within inner tokens → m (List Selector)

/-- The objects inside a part of the tokens. -/
def InnerBuilder.on {m : Type → Type} {part tokens : List Token} (build : InnerBuilder m tokens)
    (hp : part <:+: tokens) : InnerBuilder m part :=
  fun inner h => build inner (h.mono hp)

/-! ## Reading with a given builder -/

section With

variable {m : Type → Type} [Monad m] [MonadExcept PatternError m]

/-- The object that must follow a colon, and the comma that must follow the object unless it comes
    last. An object inside lies at depth `inside`, and objects may nest up to depth `limit`. This
    is `read_nested_object` of `selector_tree::core` (lines 103–146). -/
def readObjectWith (limit inside : Nat) (colon : Token) (tokens : List Token)
    (build : InnerBuilder m tokens) : m ObjectReading :=
  match tokens, build with
  | [], _ => throw (Fault.objectMissing.spanning colon.span)
  | opening :: inner, build =>
    if ho : opening.kind = .openBrace then
      if limit < inside then throw (Fault.nestedTooDeep.spanning opening.span)
      else match closeOffset? 0 inner with
        | none => throw (Fault.unclosedObject.spanning opening.span)
        | some n => do
          let children ← build (inner.take n) (within_take ho inner n)
          match inner.drop (n + 1) with
          | [] => pure ⟨children, n + 2⟩
          | next :: _ =>
            if next.kind = .comma then pure ⟨children, n + 3⟩
            else throw (Fault.commaMissing.spanning next.span)
    else throw (Fault.objectMissing.spanning colon.span)

/-- The expression that starts with the token `first`, which is `read_next_expression` of
    `selector_tree::core` (lines 71–100) once there is a token at its position. -/
def readExpressionWith (limit inside : Nat) (first : Token) (rest : List Token)
    (build : InnerBuilder m rest) : m Reading :=
  match first.kind with
  | .text key =>
    match rest, build with
    | [], _ => pure ⟨.leaf key, 0⟩
    | separator :: after, build =>
      match separator.kind with
      | .comma => pure ⟨.leaf key, 1⟩
      | .colon => do
        let object ← readObjectWith limit inside separator after
          (build.on (List.suffix_cons separator after).isInfix)
        pure ⟨.branch key object.children, 1 + object.taken⟩
      | _ => throw ((Fault.unexpectedToken .separator).spanning separator.span)
  | _ => throw ((Fault.unexpectedToken .key).spanning first.span)

/-- The selectors of the expressions in `tokens`, none of which may have a key in `seen`: the loop
    of `build_object` of `selector_tree::builder` (lines 19–43). -/
def readSiblingsWith (limit inside : Nat) (seen : List String) (tokens : List Token)
    (build : InnerBuilder m tokens) : m (List Selector) :=
  match tokens, build with
  | [], _ => pure []
  | first :: rest, build => do
    let ⟨selector, more⟩ ← readExpressionWith limit inside first rest
      (build.on (List.suffix_cons first rest).isInfix)
    if selector.key ∈ seen then throw (Fault.repeatedKey.spanning first.span)
    else do
      let siblings ← readSiblingsWith limit inside (selector.key :: seen) (rest.drop more)
        (build.on ((List.drop_suffix more rest).trans (List.suffix_cons first rest)).isInfix)
      pure (selector :: siblings)
termination_by tokens.length

end With

/-! ## The builder -/

/-- The selectors of the expressions in `tokens`, none of which may have a key in `seen`, in an
    object of depth `depth`. Depths are counted without an end. -/
def readSiblings (limit depth : Nat) (seen : List String) (tokens : List Token) :
    Except PatternError (List Selector) :=
  readSiblingsWith limit (depth + 1) seen tokens fun inner _ =>
    readSiblings limit (depth + 1) [] inner
termination_by tokens.length
decreasing_by exact Within.length_lt ‹_›

/-- The expression that starts with the token `first`, in an object of depth `depth`. -/
def readExpression (limit depth : Nat) (first : Token) (rest : List Token) :
    Except PatternError Reading :=
  readExpressionWith limit (depth + 1) first rest fun inner _ =>
    readSiblings limit (depth + 1) [] inner

/-- The object after a colon, in an object of depth `depth`. -/
def readObject (limit depth : Nat) (colon : Token) (tokens : List Token) :
    Except PatternError ObjectReading :=
  readObjectWith limit (depth + 1) colon tokens fun inner _ =>
    readSiblings limit (depth + 1) [] inner

/-- The selectors of the tokens between an object's braces. -/
def buildObject (limit depth : Nat) (tokens : List Token) : Except PatternError (List Selector) :=
  readSiblings limit depth [] tokens

/-- The selectors of the tokens between an object's braces, with depths counted in words:
    `build_object` of `selector_tree::builder` (lines 19–43). Behind the largest depth the count
    starts at zero, so from there on the limit does not hold. -/
def Word.buildObject (limit depth : Nat) (tokens : List Token) :
    Except PatternError (List Selector) :=
  readSiblingsWith limit (Word.next depth) [] tokens fun inner _ =>
    Word.buildObject limit (Word.next depth) inner
termination_by tokens.length
decreasing_by exact Within.length_lt ‹_›

/-- The selectors of a whole pattern, which is exactly one object: `build_root` of
    `selector_tree::builder` (lines 56–85). The root has depth one, and one more for every object
    that it nests in: no pattern that fits in memory nests as deep as a word counts. -/
def buildRoot (limit : Nat) (tokens : List Token) : Except PatternError (List Selector) :=
  match tokens with
  | [] => .error (Fault.emptyPattern.spanning ⟨0, 0⟩)
  | opening :: inner =>
    if opening.kind = .openBrace then
      match closeOffset? 0 inner with
      | none => .error (Fault.unclosedRoot.spanning opening.span)
      | some n =>
        match inner.drop (n + 1) with
        | [] => buildObject limit 1 (inner.take n)
        | next :: others =>
          .error (Fault.trailingText.spanning
            (next.span.through ((next :: others).getLast (by simp)).span))
    else .error ((Fault.unexpectedToken .openBrace).spanning opening.span)

/-! ## Reading one expression at a time -/

/-- Where reading stands after an expression, and its selector; without one the tokens are used
    up. `NextExpression` of `selector_tree::core` (lines 16–21). -/
structure NextExpression where
  position : Nat
  selector? : Option Selector
  deriving DecidableEq, Repr

/-- Reads the expression that starts at index `position`: `read_next_expression` of
    `selector_tree::core` (lines 71–100), as long as no depth overflows a word. -/
def readNext (limit depth position : Nat) (tokens : List Token) :
    Except PatternError NextExpression :=
  match tokens.drop position with
  | [] => .ok ⟨position, none⟩
  | first :: rest =>
    (readExpression limit depth first rest).map
      fun reading => ⟨position + 1 + reading.more, some reading.selector⟩

theorem readNext_progress {limit depth position next : Nat} {tokens : List Token}
    {selector : Selector} (h : readNext limit depth position tokens = .ok ⟨next, some selector⟩) :
    position < next ∧ position < tokens.length := by
  unfold readNext at h
  split at h
  · simp at h
  · rename_i first rest hdrop
    have hlen := congrArg List.length hdrop
    simp at hlen
    cases hread : readExpression limit depth first rest with
    | error e => simp [hread, Except.map] at h
    | ok reading => simp [hread, Except.map] at h; omega

/-- The outcomes of reading expression after expression from index `position` on,
    up to the first one that has no selector. -/
def readAll (limit depth position : Nat) (tokens : List Token) :
    List (Except PatternError NextExpression) :=
  match _h : readNext limit depth position tokens with
  | .ok ⟨next, some selector⟩ => .ok ⟨next, some selector⟩ :: readAll limit depth next tokens
  | outcome => [outcome]
termination_by tokens.length - position
decreasing_by
  have := readNext_progress _h
  omega

end FieldMask
