import FieldMask.Proofs.Pattern.Faults

/-!
# Repeated keys

A pattern of the grammar within the limit is refused exactly if two siblings have
the same key. Whether a key is new is asked when its expression has been read,
objects inside it included, so of all keys that repeat one of an earlier sibling
the reported one is not the leftmost, but the one whose expression ends first.

Results:
* `hasSibling_comma_iff`: the keys of the siblings in front of an expression.
* `Stands.unique`: where the expression of a key ends.
* `detects`: reading siblings finds the repeat that ends first.
* `buildRoot_repeatedKey`: when a pattern is refused for a repeated key, and where.
-/

namespace FieldMask

open Grammar

/-! ## Repeats -/

/-- The expression of a key among some tokens, in front of what follows it: the key alone if no
    colon follows it, else the key with its object. -/
inductive Stands (key : String) : (body after : List Token) → Prop where
  | alone {first : Token} {after : List Token} (hk : first.kind = .text key)
      (hn : ∀ next ∈ after.head?, next.kind ≠ .colon) : Stands key [first] after
  | object {first colon opening closing : Token} {inner after : List Token}
      (hh : BranchHead key first colon opening) (he : Enclosed inner closing) :
      Stands key (first :: colon :: opening :: (inner ++ [closing])) after

/-- At index `start` stands a key that an earlier sibling has, and its expression ends in front of
    index `stop`. -/
def RepeatAt (tokens : List Token) (start stop : Nat) : Prop :=
  ∃ key body after, tokens.drop start = body ++ after ∧ start + body.length = stop ∧
    Stands key body after ∧ HasSibling key (tokens.take start)

/-- No key from index `low` to in front of index `high` repeats one. -/
def NoRepeat (tokens : List Token) (low high : Nat) : Prop :=
  ∀ start stop, low ≤ start → start < high → ¬RepeatAt tokens start stop

/-- Of the repeats from index `low` to in front of index `high`, this one ends first. -/
structure FirstRepeat (tokens : List Token) (low high start stop : Nat) : Prop where
  low_le : low ≤ start
  le_high : stop ≤ high
  repeatAt : RepeatAt tokens start stop
  lt_stop : ∀ start' stop', low ≤ start' → start' < high → RepeatAt tokens start' stop' →
    start' ≠ start → stop < stop'

/-! ## The keys of earlier siblings -/

/-- Tokens that are balanced at their end are balanced in front of it. -/
theorem Closes.left {outer : Nat} {front back : List TokenKind} (h : Closes outer (front ++ back))
    (hb : Balanced back) : Closes outer front := by
  have hcount : braceCount front = -outer := by
    have hall := h.count_eq
    rw [braceCount_append, hb.count_eq] at hall
    omega
  refine ⟨fun n => ?_, hcount⟩
  rcases Nat.le_total n front.length with hn | hn
  · have hle := h.le_count n
    rwa [List.take_append_of_le_length hn] at hle
  · have hall : braceCount (front.take n) = -outer := by rw [List.take_of_length_le hn, hcount]
    exact Int.le_of_eq hall.symm

section HasSibling

variable {key : String} {before more body inner : List Token} {s : Selector}
  {first opening closing separator last : Token}

theorem hasSibling_append_iff (hm : Balanced (more.map Token.kind)) :
    HasSibling key (before ++ more) ↔ HasSibling key before ∨ HasSibling key more := by
  constructor
  · rintro ⟨front, earlier, between, h, hk, hb⟩
    rcases List.append_eq_append_iff.1 h with ⟨more', rfl, rfl⟩ | ⟨before', rfl, heq⟩
    · exact .inr ⟨more', earlier, between, rfl, hk, hb⟩
    · cases before' with
      | nil => exact .inr ⟨[], earlier, between, heq.symm, hk, hb⟩
      | cons token rest =>
        rw [List.cons_append] at heq
        obtain ⟨rfl, rfl⟩ := List.cons.inj heq
        rw [List.map_append] at hb
        exact .inl ⟨front, earlier, rest, rfl, hk, hb.left hm⟩
  · rintro (h | ⟨front, earlier, between, rfl, hk, hb⟩)
    · exact h.append hm
    · exact ⟨before ++ front, earlier, between, by simp, hk, hb⟩

theorem hasSibling_singleton_iff : HasSibling key [first] ↔ first.kind = .text key := by
  constructor
  · rintro ⟨front, earlier, between, h, hk, -⟩
    obtain ⟨-, heq⟩ | ⟨-, heq⟩ := List.append_eq_singleton_iff.1 h.symm
    · obtain ⟨rfl, -⟩ := List.cons.inj heq
      exact hk
    · contradiction
  · intro hk
    exact ⟨[], first, [], rfl, hk, balanced_nil⟩

/-- The last token has the key, or the sibling stands in front of it. -/
theorem hasSibling_concat_iff : HasSibling key (before ++ [last]) ↔ last.kind = .text key ∨
    ∃ front earlier between, before = front ++ earlier :: between ∧ earlier.kind = .text key ∧
      Balanced (between.map Token.kind ++ [last.kind]) := by
  constructor
  · rintro ⟨front, earlier, between, h, hk, hb⟩
    rcases List.eq_nil_or_concat between with rfl | ⟨between, token, rfl⟩
    · obtain ⟨-, heq⟩ := List.append_inj' h rfl
      obtain ⟨rfl, -⟩ := List.cons.inj heq
      exact .inl hk
    · rw [List.concat_eq_append] at h hb
      rw [← List.cons_append, ← List.append_assoc] at h
      obtain ⟨rfl, heq⟩ := List.append_inj' h rfl
      obtain ⟨rfl, -⟩ := List.cons.inj heq
      exact .inr ⟨front, earlier, between, rfl, hk, by simpa using hb⟩
  · rintro (hk | ⟨front, earlier, between, rfl, hk, hb⟩)
    · exact ⟨before, last, [], rfl, hk, balanced_nil⟩
    · exact ⟨front, earlier, between ++ [last], by simp, hk, by simpa using hb⟩

/-- Behind an opening brace there are no siblings yet. -/
theorem not_hasSibling_openBrace (key : String) (before : List Token)
    (ho : opening.kind = .openBrace) : ¬HasSibling key (before ++ [opening]) := by
  rw [hasSibling_concat_iff, ho]
  rintro (hk | ⟨front, earlier, between, rfl, -, hb⟩)
  · contradiction
  · have hle := hb.le_count between.length
    have hcount := hb.count_eq
    simp only [braceCount_append, braceCount_cons, braceCount_nil, weight_openBrace] at hcount
    rw [List.take_left' (List.length_map _)] at hle
    omega

/-- The keys inside an object are those of no sibling of it. -/
theorem not_hasSibling_object (ho : opening.kind = .openBrace) (he : Enclosed inner closing) :
    ¬HasSibling key (opening :: (inner ++ [closing])) := by
  rw [← List.cons_append, hasSibling_concat_iff, he.brace_eq]
  rintro (hk | ⟨front, earlier, between, heq, hk, hb⟩)
  · contradiction
  · cases front with
    | nil =>
      obtain ⟨rfl, -⟩ := List.cons.inj heq
      rw [ho] at hk
      contradiction
    | cons token front =>
      rw [List.cons_append] at heq
      obtain ⟨rfl, rfl⟩ := List.cons.inj heq
      -- Behind the key one more object is closed than opened, so one too many was in front of it.
      have hle := he.balanced.le_count front.length
      have hinner := he.balanced.count_eq
      have hbetween := hb.count_eq
      simp only [List.map_append, List.map_cons, braceCount_append, braceCount_cons,
        braceCount_nil, weight_closeBrace, hk, weight_text] at hinner hbetween
      rw [List.map_append, List.take_left' (List.length_map _)] at hle
      omega

/-- Of the keys in an expression only its own is that of a sibling. -/
theorem hasSibling_expression_iff (hx : Expression (body.map Token.kind) s) :
    HasSibling key body ↔ key = s.key := by
  cases s with
  | leaf own =>
    obtain ⟨first, rfl, hk⟩ := expression_leaf_iff.1 hx
    rw [hasSibling_singleton_iff, hk, TokenKind.text.injEq, Selector.key, eq_comm]
  | branch own children =>
    obtain ⟨first, colon, opening, inner, closing, rfl, hh, hb, hs⟩ := expression_branch_iff.1 hx
    have he : Enclosed inner closing := ⟨hs.balanced, hb⟩
    have hobject : Balanced ((opening :: (inner ++ [closing])).map Token.kind) := by
      simpa [hh.brace_eq, hb] using hs.balanced.braces
    have hcolon : Balanced ([colon].map Token.kind) := by
      rw [List.map_singleton, hh.colon_eq]
      exact balanced_singleton weight_colon
    have hsplit : first :: colon :: opening :: (inner ++ [closing]) =
        [first] ++ ([colon] ++ (opening :: (inner ++ [closing]))) := rfl
    rw [hsplit, ← List.append_assoc, hasSibling_append_iff hobject, hasSibling_append_iff hcolon,
      hasSibling_singleton_iff, hasSibling_singleton_iff, hh.key_eq, hh.colon_eq]
    simp [not_hasSibling_object hh.brace_eq he, Selector.key, eq_comm]

theorem hasSibling_comma_iff (hx : Expression (body.map Token.kind) s)
    (hc : separator.kind = .comma) :
    HasSibling key (before ++ (body ++ [separator])) ↔ key = s.key ∨ HasSibling key before := by
  have hcomma : Balanced ([separator].map Token.kind) := by
    rw [List.map_singleton, hc]
    exact balanced_singleton weight_comma
  rw [hasSibling_append_iff (hx.balanced.comma hc), hasSibling_append_iff hcomma,
    hasSibling_expression_iff hx, hasSibling_singleton_iff, hc]
  simp [or_comm]

end HasSibling

/-! ## Where a repeat ends -/

section Repeats

variable {key : String} {tokens before body after : List Token} {low mid high start stop : Nat}

theorem Stands.exists_cons (h : Stands key body after) :
    ∃ first inner, body = first :: inner ∧ first.kind = .text key := by
  cases h with
  | alone hk hn => exact ⟨_, _, rfl, hk⟩
  | object hh he => exact ⟨_, _, rfl, hh.key_eq⟩

/-- The tokens determine the expression at their head. -/
theorem Stands.unique (h : Stands key body after) {key' : String} {body' after' : List Token}
    (h' : Stands key' body' after') (heq : body ++ after = body' ++ after') :
    key = key' ∧ body.length = body'.length := by
  have hkey : key = key' := by
    obtain ⟨first, inner, rfl, hk⟩ := h.exists_cons
    obtain ⟨first', inner', rfl, hk'⟩ := h'.exists_cons
    obtain ⟨rfl, -⟩ := List.cons.inj heq
    exact TokenKind.text.inj (hk.symm.trans hk')
  refine ⟨hkey, ?_⟩
  cases h with
  | alone hk hn =>
    cases h' with
    | alone hk' hn' => rfl
    | object hh he =>
      obtain ⟨-, rfl⟩ := List.cons.inj heq
      exact absurd hh.colon_eq (hn _ rfl)
  | @object first colon opening closing inner _ hh he =>
    cases h' with
    | alone hk' hn' =>
      obtain ⟨-, rfl⟩ := List.cons.inj heq
      exact absurd hh.colon_eq (hn' _ rfl)
    | @object first' colon' opening' closing' inner' _ hh' he' =>
      have hinner : inner ++ closing :: after = inner' ++ closing' :: after' := by
        simpa using congrArg (List.drop 3) heq
      -- Looking ahead for the closing brace finds one and the same.
      have hclose := closeOffset?_append he.balanced he.brace_eq after
      rw [hinner, closeOffset?_append he'.balanced he'.brace_eq, Option.some.injEq] at hclose
      simp [hclose]

theorem Stands.of_expression {s : Selector} (hx : Expression (body.map Token.kind) s)
    (hn : ∀ next ∈ after.head?, next.kind ≠ .colon) : Stands s.key body after := by
  cases s with
  | leaf key =>
    obtain ⟨first, rfl, hk⟩ := expression_leaf_iff.1 hx
    exact .alone hk hn
  | branch key children =>
    obtain ⟨first, colon, opening, inner, closing, rfl, hh, hb, hs⟩ := expression_branch_iff.1 hx
    exact .object hh ⟨hs.balanced, hb⟩

/-- Whether the key of an expression is a repeat is a matter of what stands before it. -/
theorem Stands.repeatAt_iff (h : Stands key body after) :
    RepeatAt (before ++ (body ++ after)) before.length stop ↔
      stop = before.length + body.length ∧ HasSibling key before := by
  constructor
  · rintro ⟨key', body', after', heq, rfl, hs, hk⟩
    rw [List.drop_left] at heq
    rw [List.take_left] at hk
    obtain ⟨rfl, hlen⟩ := h.unique hs heq
    exact ⟨by rw [hlen], hk⟩
  · rintro ⟨rfl, hk⟩
    exact ⟨key, body, after, List.drop_left, rfl, h, by rwa [List.take_left]⟩

theorem RepeatAt.exists_key (h : RepeatAt tokens start stop) :
    ∃ token key, tokens[start]? = some token ∧ token.kind = .text key := by
  obtain ⟨key, body, after, heq, -, hs, -⟩ := h
  obtain ⟨first, inner, rfl, hk⟩ := hs.exists_cons
  exact ⟨first, key, getElem?_of_drop heq, hk⟩

theorem RepeatAt.lt (h : RepeatAt tokens start stop) : start < stop := by
  obtain ⟨key, body, after, -, rfl, hs, -⟩ := h
  obtain ⟨first, inner, rfl, -⟩ := hs.exists_cons
  rw [List.length_cons]
  omega

theorem RepeatAt.lt_length (h : RepeatAt tokens start stop) : start < tokens.length := by
  obtain ⟨token, key, ht, -⟩ := h.exists_key
  exact (List.getElem?_eq_some_iff.1 ht).1

theorem noRepeat_self : NoRepeat tokens low low := by
  intro start stop hlow hhigh
  omega

/-- A token that is no key repeats none. -/
theorem noRepeat_of_not_text (front : List Token) {back : List Token} {token : Token}
    (heq : tokens = front ++ token :: back) (hlow : front.length = low)
    (hk : ∀ key, token.kind ≠ .text key) : NoRepeat tokens low (low + 1) := by
  intro start stop hle hlt hr
  obtain ⟨found, key, hfound, hkey⟩ := hr.exists_key
  obtain rfl : start = front.length := by omega
  rw [heq, List.getElem?_append_right (Nat.le_refl _), Nat.sub_self] at hfound
  obtain rfl := Option.some.inj hfound
  exact hk key hkey

theorem NoRepeat.append (h : NoRepeat tokens low mid) (h' : NoRepeat tokens mid high) :
    NoRepeat tokens low high := by
  intro start stop hlow hhigh
  rcases Nat.lt_or_ge start mid with hmid | hmid
  · exact h start stop hlow hmid
  · exact h' start stop hmid hhigh

/-- What ends first among some tokens ends first among more, if those before them repeat nothing
    or end later. -/
theorem FirstRepeat.extend (h : FirstRepeat tokens mid high start stop) (hle : low ≤ mid)
    {top : Nat} (htop : high ≤ top)
    (hbefore : ∀ start' stop', low ≤ start' → start' < mid → RepeatAt tokens start' stop' →
      high < stop') : FirstRepeat tokens low top start stop where
  low_le := Nat.le_trans hle h.low_le
  le_high := Nat.le_trans h.le_high htop
  repeatAt := h.repeatAt
  lt_stop := by
    intro start' stop' hlow htop' hr hne
    have hstart' := hr.lt
    have hstop := h.le_high
    rcases Nat.lt_or_ge start' mid with hmid | hmid
    · have hlate := hbefore start' stop' hlow hmid hr
      omega
    · rcases Nat.lt_or_ge start' high with hhigh | hhigh
      · exact h.lt_stop start' stop' hmid hhigh hr hne
      · omega

end Repeats

/-! ## Reading finds them -/

/-- What comes of reading the tokens from index `low` to in front of index `high`: selectors, and
    nothing repeats, or else the repeat that ends first is reported. -/
inductive Detects (tokens : List Token) (low high : Nat) (selectors : List Selector) :
    Except PatternError (List Selector) → Prop where
  | nothing (h : NoRepeat tokens low high) : Detects tokens low high selectors (.ok selectors)
  | first {start stop : Nat} {token : Token} (h : FirstRepeat tokens low high start stop)
      (ht : tokens[start]? = some token) :
      Detects tokens low high selectors (.error (Fault.repeatedKey.spanning token.span))

namespace Detects

variable {tokens : List Token} {low mid high top : Nat} {selectors : List Selector}
  {outcome : Except PatternError (List Selector)}

theorem widen (h : Detects tokens mid high selectors outcome) (hlow : low ≤ mid)
    (hbefore : NoRepeat tokens low mid) (htop : high ≤ top) (hafter : NoRepeat tokens high top) :
    Detects tokens low top selectors outcome := by
  cases h with
  | nothing h => exact .nothing ((hbefore.append h).append hafter)
  | first h ht =>
    refine .first (h.extend hlow htop fun start stop hle hlt hr => ?_) ht
    exact absurd hr (hbefore start stop hle hlt)

theorem map_cons (h : Detects tokens low high selectors outcome) (s : Selector) :
    Detects tokens low high (s :: selectors) (outcome.map (s :: ·)) := by
  cases h with
  | nothing h => exact .nothing h
  | first h ht => exact .first h ht

end Detects

/-- Reading stands among all tokens in front of some siblings, with the keys of those behind
    it seen. -/
structure Ahead (all : List Token) (seen : List String) (before tokens after : List Token) :
    Prop where
  eq : all = before ++ (tokens ++ after)
  mem_iff : ∀ key, key ∈ seen ↔ HasSibling key before
  head_ne : ∀ next ∈ after.head?, next.kind ≠ .colon

section Detects

variable {limit depth : Nat} {all before body tail left after : List Token} {seen : List String}
  {s : Selector} {others : List Selector}

/-- Reading stands behind an expression and its comma. -/
theorem Ahead.comma {separator : Token} (hc : separator.kind = .comma)
    (h : Ahead all seen before (body ++ separator :: left) after)
    (hx : Expression (body.map Token.kind) s) :
    Ahead all (s.key :: seen) (before ++ (body ++ [separator])) left after where
  eq := by simpa using h.eq
  mem_iff := by
    intro key
    rw [hasSibling_comma_iff hx hc, List.mem_cons, h.mem_iff]
  head_ne := h.head_ne

/-- Reading stands behind the brace that opens an object. -/
theorem Ahead.nested {key : String} {first colon opening closing : Token} {inner : List Token}
    (hh : BranchHead key first colon opening) (he : Enclosed inner closing)
    (h : Ahead all seen before (first :: colon :: opening :: (inner ++ [closing]) ++ tail) after) :
    Ahead all [] (before ++ [first, colon, opening]) inner (closing :: (tail ++ after)) where
  eq := by simpa using h.eq
  mem_iff := by
    intro key
    have hnone := not_hasSibling_openBrace key (before ++ [first, colon]) hh.brace_eq
    simpa using hnone
  head_ne := by simp [he.brace_eq]

theorem Ahead.stands (h : Ahead all seen before (body ++ tail) after)
    (hx : Expression (body.map Token.kind) s) (hf : Follows tail left) :
    Stands s.key body (tail ++ after) := by
  refine .of_expression hx ?_
  cases hf with
  | nothing => exact h.head_ne
  | comma hc => simp [hc]

/-- Behind an expression inside of which nothing repeats, its own key is looked at, and then
    what is left. -/
theorem detects_expression (h : Ahead all seen before (body ++ tail) after)
    (hx : Expression (body.map Token.kind) s) (hf : Follows tail left)
    (hr : Reads limit depth (body ++ tail) (.ok (s, left)))
    (hinside : NoRepeat all (before.length + 1) (before.length + body.length))
    (hothers : Siblings (left.map Token.kind) others)
    (hleft : ∀ before', Ahead all (s.key :: seen) before' left after →
      Detects all before'.length (before'.length + left.length) others
        (readSiblings limit depth (s.key :: seen) left)) :
    Detects all before.length (before.length + (body ++ tail).length) (s :: others)
      (readSiblings limit depth seen (body ++ tail)) := by
  have hall : all = before ++ (body ++ (tail ++ after)) := by simpa using h.eq
  have hown : ∀ stop, RepeatAt all before.length stop ↔
      stop = before.length + body.length ∧ s.key ∈ seen := by
    intro stop
    rw [hall, (h.stands hx hf).repeatAt_iff, h.mem_iff]
  obtain ⟨first, inner, rfl, -, -⟩ := hx.exists_cons
  rw [List.cons_append] at hr ⊢
  by_cases hs : s.key ∈ seen
  · rw [readSiblings_of_repeated hr hs]
    refine .first ⟨Nat.le_refl _, ?_, (hown _).2 ⟨rfl, hs⟩, ?_⟩ ?_
    · simp
    · intro start stop hlow hhigh hrepeat hne
      have hlt := hrepeat.lt
      rcases Nat.lt_or_ge start (before.length + (first :: inner).length) with hin | hout
      · exact absurd hrepeat (hinside start stop (by omega) hin)
      · omega
    · simp [hall]
  · have hnone : NoRepeat all before.length (before.length + (first :: inner).length) := by
      have hfirst : NoRepeat all before.length (before.length + 1) := by
        intro start stop hlow hhigh hrepeat
        obtain rfl : start = before.length := by omega
        exact hs ((hown stop).1 hrepeat).2
      exact hfirst.append hinside
    rw [readSiblings_of_ok hr hs]
    cases hf with
    | nothing =>
      obtain rfl := eq_nil_of_siblings hothers
      rw [readSiblings_nil]
      exact .nothing (by simpa using hnone)
    | @comma separator left hc =>
      have hbehind : (before ++ (first :: inner ++ [separator])).length =
          before.length + (first :: inner).length + 1 := by simp [Nat.add_assoc]
      have hhigh : before.length + (first :: (inner ++ separator :: left)).length =
          (before ++ (first :: inner ++ [separator])).length + left.length := by
        simp only [List.length_append, List.length_cons, List.length_nil]
        omega
      have hcomma : NoRepeat all (before.length + (first :: inner).length)
          (before.length + (first :: inner).length + 1) :=
        noRepeat_of_not_text (before ++ first :: inner) (by simpa using hall) (by simp)
          (by simp [hc])
      rw [hhigh]
      have hothers := hleft _ (h.comma hc hx)
      refine (hothers.widen (by omega) ?_ (Nat.le_refl _) noRepeat_self).map_cons s
      rw [hbehind]
      exact hnone.append hcomma

section Branch

variable {key : String} {first colon opening closing : Token} {inner : List Token}
  (hh : BranchHead key first colon opening) (he : Enclosed inner closing)
  (h : Ahead all seen before (first :: colon :: opening :: (inner ++ [closing]) ++ tail) after)

include hh h

/-- Of the tokens with which a branch starts only the key can be a repeat. -/
theorem Ahead.noRepeat_branchHead : NoRepeat all (before.length + 1) (before.length + 3) := by
  have hcolon : NoRepeat all (before.length + 1) (before.length + 2) :=
    noRepeat_of_not_text (before ++ [first]) (by simpa using h.eq) (by simp)
      (by simp [hh.colon_eq])
  have hopening : NoRepeat all (before.length + 2) (before.length + 3) :=
    noRepeat_of_not_text (before ++ [first, colon]) (by simpa using h.eq) (by simp)
      (by simp [hh.brace_eq])
  exact hcolon.append hopening

/-- A repeat inside an object ends before the key in front of the object can be one. -/
theorem Ahead.firstRepeat_inside {start stop : Nat}
    (hx : Expression ((first :: colon :: opening :: (inner ++ [closing])).map Token.kind) s)
    (hf : Follows tail left)
    (hr : FirstRepeat all (before.length + 3) (before.length + 3 + inner.length) start stop) :
    FirstRepeat all before.length
      (before.length + (first :: colon :: opening :: (inner ++ [closing]) ++ tail).length)
      start stop := by
  refine hr.extend (by omega) ?_ fun start stop hlow hhigh hrepeat => ?_
  · simp only [List.length_cons, List.length_append]
    omega
  · rcases Nat.eq_or_lt_of_le hlow with rfl | hlt
    · rw [h.eq, List.append_assoc, (h.stands hx hf).repeatAt_iff] at hrepeat
      obtain ⟨rfl, -⟩ := hrepeat
      simp only [List.length_cons, List.length_append]
      omega
    · exact absurd hrepeat (h.noRepeat_branchHead hh start stop hlt hhigh)

include he

/-- An object is read inside, and without a repeat there the key in front of it is looked at. -/
theorem detects_branch {children : List Selector} (hd : depth + 1 ≤ limit)
    (hs : Siblings (inner.map Token.kind) children) (hf : Follows tail left)
    (hinner : Detects all (before.length + 3) (before.length + 3 + inner.length) children
      (readSiblings limit (depth + 1) [] inner))
    (hothers : Siblings (left.map Token.kind) others)
    (hleft : ∀ before', Ahead all (key :: seen) before' left after →
      Detects all before'.length (before'.length + left.length) others
        (readSiblings limit depth (key :: seen) left)) :
    Detects all before.length
      (before.length + (first :: colon :: opening :: (inner ++ [closing]) ++ tail).length)
      (.branch key children :: others)
      (readSiblings limit depth seen
        (first :: colon :: opening :: (inner ++ [closing]) ++ tail)) := by
  have hbody : first :: colon :: opening :: (inner ++ [closing]) ++ tail =
      first :: colon :: opening :: (inner ++ closing :: tail) := by simp
  have hx : Expression ((first :: colon :: opening :: (inner ++ [closing])).map Token.kind)
      (.branch key children) :=
    expression_branch_iff.2 ⟨first, colon, opening, inner, closing, rfl, hh, he.brace_eq, hs⟩
  generalize hread : readSiblings limit (depth + 1) [] inner = outcome at hinner
  cases hinner with
  | @first start stop token hfirst ht =>
    have hfails : readSiblings limit depth seen
        (first :: colon :: opening :: (inner ++ [closing]) ++ tail) =
          .error (Fault.repeatedKey.spanning token.span) := by
      rw [hbody]
      exact readSiblings_of_error (.inside hh hd he hread)
    rw [hfails]
    exact .first (h.firstRepeat_inside hh hx hf hfirst) ht
  | nothing hnone =>
    have hr : Reads limit depth (first :: colon :: opening :: (inner ++ [closing]) ++ tail)
        (.ok (.branch key children, left)) := by
      rw [hbody]
      exact .branch hh hd he hread hf
    have hclosing : NoRepeat all (before.length + 3 + inner.length)
        (before.length + 3 + inner.length + 1) :=
      noRepeat_of_not_text (before ++ [first, colon, opening] ++ inner)
        (by simpa using h.eq) (by simp; omega) (by simp [he.brace_eq])
    have hlength : before.length + (first :: colon :: opening :: (inner ++ [closing])).length =
        before.length + 3 + inner.length + 1 := by
      simp only [List.length_cons, List.length_append, List.length_nil]
      omega
    refine detects_expression h hx hf hr ?_ hothers hleft
    rw [hlength]
    exact ((h.noRepeat_branchHead hh).append hnone).append hclosing

end Branch

/-- By induction on the siblings: the first expression is a key, or an object is read in it. -/
theorem detects {selectors : List Selector} {tokens : List Token}
    (h : Ahead all seen before tokens after)
    (hs : Siblings (tokens.map Token.kind) selectors)
    (hn : Selector.nestings selectors = 0 ∨ depth + Selector.nestings selectors ≤ limit) :
    Detects all before.length (before.length + tokens.length) selectors
      (readSiblings limit depth seen tokens) := by
  induction selectors using Selector.induct generalizing depth seen before tokens after with
  | nil =>
    obtain rfl := List.map_eq_nil_iff.1 (siblings_nil_iff.1 hs)
    rw [readSiblings_nil]
    exact .nothing noRepeat_self
  | leaf key rest ih =>
    obtain ⟨body, tail, left, rfl, hx, hf, hrest⟩ := siblings_cons_iff.1 hs
    rw [Selector.nestings_leaf_cons] at hn
    refine detects_expression h hx hf (reads_leaf_iff.2 ⟨body, tail, rfl, hx, hf⟩) ?_ hrest
      fun before' h' => ih h' hrest hn
    obtain ⟨first, rfl, -⟩ := expression_leaf_iff.1 hx
    exact noRepeat_self
  | branch key children rest ihc ihr =>
    obtain ⟨body, tail, left, rfl, hx, hf, hrest⟩ := siblings_cons_iff.1 hs
    obtain ⟨first, colon, opening, inner, closing, rfl, hh, hb, hchildren⟩ :=
      expression_branch_iff.1 hx
    have he : Enclosed inner closing := ⟨hchildren.balanced, hb⟩
    rw [Selector.nestings_branch_cons] at hn
    have hdeep : Selector.nestings children = 0 ∨
        depth + 1 + Selector.nestings children ≤ limit := by omega
    have hinner := ihc (h.nested hh he) hchildren hdeep
    rw [List.length_append] at hinner
    exact detects_branch hh he h (by omega) hchildren hf hinner hrest
      fun before' h' => ihr h' hrest (by omega)

end Detects

/-! ## A whole pattern -/

section Root

variable {limit : Nat} {tokens : List Token} {selectors : List Selector}

theorem ahead_root {opening closing : Token} {inner : List Token} (ho : opening.kind = .openBrace)
    (hc : closing.kind = .closeBrace) :
    Ahead (opening :: inner ++ [closing]) [] [opening] inner [closing] where
  eq := rfl
  mem_iff := by
    intro key
    have hnone := not_hasSibling_openBrace key [] ho
    simpa using hnone
  head_ne := by simp [hc]

theorem detects_root (hroot : Root (tokens.map Token.kind) selectors)
    (hn : ∀ r, Selector.ObjectAt selectors r → 1 + r ≤ limit) :
    Detects tokens 0 tokens.length selectors (buildRoot limit tokens) := by
  obtain ⟨opening, inner, closing, rfl, ho, hc, hs⟩ := root_iff.1 hroot
  have hbuild : buildRoot limit (opening :: inner ++ [closing]) = buildObject limit 1 inner :=
    buildRoot_eq_iff.2 (.inside ho ⟨hs.balanced, hc⟩ rfl)
  have hopening : NoRepeat (opening :: inner ++ [closing]) 0 1 :=
    noRepeat_of_not_text [] rfl rfl (by simp [ho])
  have hclosing : NoRepeat (opening :: inner ++ [closing]) (1 + inner.length)
      (1 + inner.length + 1) :=
    noRepeat_of_not_text (opening :: inner) rfl (Nat.add_comm _ _) (by simp [hc])
  have hlength : (opening :: inner ++ [closing]).length = 1 + inner.length + 1 := by
    rw [List.length_append, List.length_cons, List.length_singleton, Nat.add_comm inner.length]
  rw [hbuild, hlength]
  exact (detects (ahead_root ho hc) hs (Selector.objectAt_le_iff.1 hn)).widen (Nat.zero_le 1)
    hopening (Nat.le_succ _) hclosing

/-- What is built fails exactly where a key is repeated. -/
theorem Detects.exists_error_iff {outcome : Except PatternError (List Selector)}
    (h : Detects tokens 0 tokens.length selectors outcome) :
    (∃ error, outcome = .error error) ↔ ∃ start stop, RepeatAt tokens start stop := by
  cases h with
  | nothing h =>
    refine ⟨by simp, ?_⟩
    rintro ⟨start, stop, hr⟩
    exact absurd hr (h start stop (Nat.zero_le _) hr.lt_length)
  | first h ht => exact ⟨fun _ => ⟨_, _, h.repeatAt⟩, fun _ => ⟨_, rfl⟩⟩

end Root

/-- A pattern of the grammar within the limit is refused exactly if two siblings somewhere in it
    have the same key, and then for the repeated key whose expression ends first. -/
theorem buildRoot_repeatedKey (limit : Nat) (tokens : List Token) (selectors : List Selector)
    (hroot : Root (tokens.map Token.kind) selectors)
    (hn : ∀ r, Selector.ObjectAt selectors r → 1 + r ≤ limit) :
    ((∃ error, buildRoot limit tokens = .error error) ↔ ¬Selector.Distinct selectors) ∧
    ((∃ error, buildRoot limit tokens = .error error) ↔
      ∃ start stop, RepeatAt tokens start stop) ∧
    ∀ error, buildRoot limit tokens = .error error →
      ∃ start stop token, RepeatAt tokens start stop ∧ tokens[start]? = some token ∧
        error = Fault.repeatedKey.spanning token.span ∧
        ∀ start' stop', RepeatAt tokens start' stop' → start' ≠ start → stop < stop' := by
  have hdetects := detects_root hroot hn
  have hok : buildRoot limit tokens = .ok selectors ↔ Selector.Distinct selectors := by
    rw [buildRoot_eq_ok_iff_root]
    exact ⟨fun h => h.2.distinct, fun h => ⟨hroot, h, hn⟩⟩
  generalize buildRoot limit tokens = outcome at hdetects hok ⊢
  refine ⟨?_, hdetects.exists_error_iff, ?_⟩
  · rw [← hok]
    cases hdetects with
    | nothing h => simp
    | first h ht => simp
  · rintro error rfl
    cases hdetects with
    | @first start stop token h ht =>
      refine ⟨start, stop, token, h.repeatAt, ht, rfl, fun start' stop' hr hne => ?_⟩
      exact h.lt_stop start' stop' (Nat.zero_le _) hr.lt_length hr hne

/-- The tokens of a pattern whose second key `a` repeats the first one, and has an object in
    which the second key `b` does. -/
def repeatedInside : List Token :=
  [⟨.openBrace, ⟨0, 1⟩⟩, ⟨.text "a", ⟨1, 1⟩⟩, ⟨.comma, ⟨2, 1⟩⟩, ⟨.text "a", ⟨3, 1⟩⟩,
    ⟨.colon, ⟨4, 1⟩⟩, ⟨.openBrace, ⟨5, 1⟩⟩, ⟨.text "b", ⟨6, 1⟩⟩, ⟨.comma, ⟨7, 1⟩⟩,
    ⟨.text "b", ⟨8, 3⟩⟩, ⟨.closeBrace, ⟨11, 1⟩⟩, ⟨.closeBrace, ⟨12, 1⟩⟩]

theorem buildRoot_repeatedKey_inside :
    buildRoot 2 repeatedInside = .error (Fault.repeatedKey.spanning ⟨8, 3⟩) ∧
      ¬Selector.Distinct [.leaf "a", .branch "a" [.leaf "b", .leaf "b"]] ∧
      ∃ start stop token, RepeatAt repeatedInside start stop ∧
        repeatedInside[start]? = some token ∧
        Fault.repeatedKey.spanning ⟨8, 3⟩ = Fault.repeatedKey.spanning token.span ∧
        ∀ start' stop', RepeatAt repeatedInside start' stop' → start' ≠ start → stop < stop' := by
  have hroot : Root (repeatedInside.map Token.kind)
      [.leaf "a", .branch "a" [.leaf "b", .leaf "b"]] :=
    ⟨_, rfl, .cons (.leaf "a") (.last (.branch "a" (.cons (.leaf "b") (.last (.leaf "b")))))⟩
  have hn : ∀ r, Selector.ObjectAt [.leaf "a", .branch "a" [.leaf "b", .leaf "b"]] r →
      1 + r ≤ 2 := Selector.objectAt_le_iff.2 (by decide)
  have hbuild : buildRoot 2 repeatedInside = .error (Fault.repeatedKey.spanning ⟨8, 3⟩) := by
    simp [repeatedInside, buildRoot, buildObject, closeOffset?, readSiblings_cons, readFirst,
      readExpression_def, readObject_cons, Except.bind, Except.map, Selector.key]
  obtain ⟨hdistinct, -, hfirst⟩ := buildRoot_repeatedKey 2 _ _ hroot hn
  exact ⟨hbuild, hdistinct.1 ⟨_, hbuild⟩, hfirst _ hbuild⟩

end FieldMask
