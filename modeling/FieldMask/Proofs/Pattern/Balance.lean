import FieldMask.Pattern.Brace

/-!
# Counting braces

The running brace count of a pattern goes up by one at each opening brace and
down by one at each closing one. Looking ahead for the brace that closes an
object is the same as following this count until it first falls below where it
started.

Results:
* `closeOffset?_append_of_nonneg`: looking ahead through tokens follows their count.
* `closeOffset?_eq_some_iff`: the closing brace stands behind tokens in which
  the count never falls below its start and ends at it.
* `closeOffset?_eq_none_iff`: there is none exactly if the count never falls
  below its start.
-/

namespace FieldMask

/-- What a token adds to the number of open objects. -/
def TokenKind.weight : TokenKind → Int
  | openBrace => 1
  | closeBrace => -1
  | _ => 0

/-- The number of opening braces less the number of closing ones. -/
def braceCount : List TokenKind → Int
  | [] => 0
  | kind :: kinds => kind.weight + braceCount kinds

/-- How many of some tokens are of a kind. -/
def countKind (kind : TokenKind) (tokens : List Token) : Nat := (tokens.map Token.kind).count kind

/-- The tokens close `outer` objects that were open before them and all objects
    they open themselves, and nowhere more than that. -/
structure Closes (outer : Nat) (kinds : List TokenKind) : Prop where
  le_count : ∀ n, -(outer : Int) ≤ braceCount (kinds.take n)
  count_eq : braceCount kinds = -outer

/-- The tokens close exactly the objects they open, each after its opening brace. -/
abbrev Balanced (kinds : List TokenKind) : Prop := Closes 0 kinds

/-- Nowhere in the tokens is the count above the bound. -/
def Shallow (bound : Int) (kinds : List TokenKind) : Prop :=
  ∀ n, braceCount (kinds.take n) ≤ bound

/-! ## The running count -/

@[simp] theorem braceCount_nil : braceCount [] = 0 := rfl

@[simp] theorem braceCount_cons (kind : TokenKind) (kinds : List TokenKind) :
    braceCount (kind :: kinds) = kind.weight + braceCount kinds := rfl

@[simp] theorem braceCount_append (front back : List TokenKind) :
    braceCount (front ++ back) = braceCount front + braceCount back := by
  induction front with
  | nil => simp
  | cons kind front ih =>
    rw [List.cons_append, braceCount_cons, braceCount_cons, ih, Int.add_assoc]

@[simp] theorem weight_openBrace : TokenKind.openBrace.weight = 1 := rfl

@[simp] theorem weight_closeBrace : TokenKind.closeBrace.weight = -1 := rfl

@[simp] theorem weight_comma : TokenKind.comma.weight = 0 := rfl

@[simp] theorem weight_colon : TokenKind.colon.weight = 0 := rfl

@[simp] theorem weight_text (key : String) : (TokenKind.text key).weight = 0 := rfl

/-- A token either leaves some number of objects open or is one closing brace too many. -/
theorem weight_cases (outer : Nat) (kind : TokenKind) :
    (∃ inner : Nat, outer + kind.weight = inner) ∨ outer = 0 ∧ kind = .closeBrace := by
  cases kind with
  | openBrace => exact .inl ⟨outer + 1, by simp⟩
  | closeBrace =>
    cases outer with
    | zero => exact .inr ⟨rfl, rfl⟩
    | succ inner => exact .inl ⟨inner, by rw [weight_closeBrace]; omega⟩
  | comma => exact .inl ⟨outer, by simp⟩
  | colon => exact .inl ⟨outer, by simp⟩
  | text key => exact .inl ⟨outer, by simp⟩

/-! ## Closing objects -/

theorem closes_nil_iff {outer : Nat} : Closes outer [] ↔ outer = 0 := by
  constructor
  · intro h
    have := h.count_eq
    rw [braceCount_nil] at this
    omega
  · rintro rfl
    exact ⟨by simp, rfl⟩

/-- What the first token opens or closes is left to the others. -/
theorem closes_cons_iff {outer m : Nat} {kind : TokenKind} {kinds : List TokenKind}
    (h : outer + kind.weight = m) : Closes outer (kind :: kinds) ↔ Closes m kinds := by
  constructor
  · intro hc
    refine ⟨fun n => ?_, ?_⟩
    · have := hc.le_count (n + 1)
      rw [List.take_succ_cons, braceCount_cons] at this
      omega
    · have := hc.count_eq
      rw [braceCount_cons] at this
      omega
  · intro hc
    refine ⟨fun n => ?_, ?_⟩
    · cases n with
      | zero => simp
      | succ n =>
        have := hc.le_count n
        rw [List.take_succ_cons, braceCount_cons]
        omega
    · have := hc.count_eq
      rw [braceCount_cons]
      omega

/-- No tokens with a closing brace too many at their head close anything. -/
theorem not_closes_closeBrace (kinds : List TokenKind) : ¬Balanced (.closeBrace :: kinds) := by
  intro h
  have := h.le_count 1
  simp at this

theorem Closes.head_ne {kind : TokenKind} {kinds : List TokenKind}
    (h : Balanced (kind :: kinds)) : kind ≠ .closeBrace := by
  rintro rfl
  exact not_closes_closeBrace kinds h

theorem closes_append_iff {outer : Nat} {front back : List TokenKind} (hf : Balanced front) :
    Closes outer (front ++ back) ↔ Closes outer back := by
  have hcount := hf.count_eq
  constructor
  · intro h
    refine ⟨fun n => ?_, ?_⟩
    · have := h.le_count (front.length + n)
      rw [List.take_length_add_append, braceCount_append] at this
      omega
    · have := h.count_eq
      rw [braceCount_append] at this
      omega
  · intro h
    refine ⟨fun n => ?_, ?_⟩
    · rw [List.take_append, braceCount_append]
      rcases Nat.le_total front.length n with hn | hn
      · have := h.le_count (n - front.length)
        rw [List.take_of_length_le hn]
        omega
      · have := hf.le_count n
        rw [Nat.sub_eq_zero_of_le hn, List.take_zero, braceCount_nil]
        omega
    · rw [braceCount_append, h.count_eq]
      omega

theorem balanced_nil : Balanced [] := closes_nil_iff.2 rfl

/-- A token that is no brace changes nothing. -/
theorem balanced_cons_iff {kind : TokenKind} (h : kind.weight = 0) {kinds : List TokenKind} :
    Balanced (kind :: kinds) ↔ Balanced kinds :=
  closes_cons_iff (by simp [h])

theorem balanced_singleton {kind : TokenKind} (h : kind.weight = 0) : Balanced [kind] :=
  (balanced_cons_iff h).2 balanced_nil

/-- A comma behind balanced tokens. -/
theorem Closes.comma {front : List Token} {separator : Token} (h : Balanced (front.map Token.kind))
    (hc : separator.kind = .comma) : Balanced ((front ++ [separator]).map Token.kind) := by
  rw [List.map_append, List.map_singleton, hc]
  exact (closes_append_iff h).2 (balanced_singleton weight_comma)

/-- An object is balanced if what stands between its braces is. -/
theorem Closes.braces {inner : List TokenKind} (h : Balanced inner) :
    Balanced (.openBrace :: inner ++ [.closeBrace]) := by
  have hclose : Closes 1 [TokenKind.closeBrace] :=
    (closes_cons_iff (m := 0) (by simp)).2 balanced_nil
  exact (closes_cons_iff (m := 1) (by simp)).2 ((closes_append_iff h).2 hclose)

/-! ## Nesting -/

theorem shallow_nil_iff {bound : Int} : Shallow bound [] ↔ 0 ≤ bound := by
  simp [Shallow]

theorem Shallow.nonneg {bound : Int} {kinds : List TokenKind} (h : Shallow bound kinds) :
    0 ≤ bound := by
  simpa using h 0

theorem Shallow.count_le {bound : Int} {kinds : List TokenKind} (h : Shallow bound kinds) :
    braceCount kinds ≤ bound := by
  simpa using h kinds.length

theorem Shallow.mono {bound higher : Int} {kinds : List TokenKind} (h : Shallow bound kinds)
    (hle : bound ≤ higher) : Shallow higher kinds :=
  fun n => Int.le_trans (h n) hle

theorem Shallow.cons {bound : Int} {kind : TokenKind} {kinds : List TokenKind} (hb : 0 ≤ bound)
    (h : Shallow (bound - kind.weight) kinds) : Shallow bound (kind :: kinds) := by
  intro n
  cases n with
  | zero => simpa using hb
  | succ n =>
    have := h n
    rw [List.take_succ_cons, braceCount_cons]
    omega

/-- A token that is no brace does not nest. -/
theorem Shallow.flat {bound : Int} {kind : TokenKind} {kinds : List TokenKind}
    (hw : kind.weight = 0) (h : Shallow bound kinds) : Shallow bound (kind :: kinds) := by
  refine .cons h.nonneg ?_
  rw [hw, Int.sub_zero]
  exact h

theorem Shallow.append {bound : Int} {front back : List TokenKind} (hf : Shallow bound front)
    (hb : Shallow (bound - braceCount front) back) : Shallow bound (front ++ back) := by
  intro n
  rw [List.take_append, braceCount_append]
  rcases Nat.le_total front.length n with hn | hn
  · have := hb (n - front.length)
    rw [List.take_of_length_le hn]
    omega
  · have := hf n
    rw [Nat.sub_eq_zero_of_le hn, List.take_zero, braceCount_nil]
    omega

/-! ## Looking ahead -/

theorem closeOffset?_cons {outer inner : Nat} {token : Token}
    (h : outer + token.kind.weight = inner) (rest : List Token) :
    closeOffset? outer (token :: rest) = (closeOffset? inner rest).map (· + 1) := by
  cases hk : token.kind with
  | openBrace =>
    obtain rfl : inner = outer + 1 := by simp [hk] at h; omega
    simp [closeOffset?, hk]
  | closeBrace =>
    obtain rfl : outer = inner + 1 := by simp [hk] at h; omega
    simp [closeOffset?, hk]
  | comma | colon | text =>
    obtain rfl : inner = outer := by simp [hk] at h; omega
    simp [closeOffset?, hk]

theorem closeOffset?_cons_closeBrace {token : Token} (h : token.kind = .closeBrace)
    (rest : List Token) : closeOffset? 0 (token :: rest) = some 0 := by
  simp [closeOffset?, h]

/-- Behind tokens that close no more than was open, the search stands where they leave it. -/
theorem closeOffset?_append_of_nonneg {outer m : Nat} {front : List Token}
    (h : ∀ n, -(outer : Int) ≤ braceCount ((front.map Token.kind).take n))
    (hm : outer + braceCount (front.map Token.kind) = m) (rest : List Token) :
    closeOffset? outer (front ++ rest) = (closeOffset? m rest).map (· + front.length) := by
  induction front generalizing outer with
  | nil =>
    rw [List.map_nil, braceCount_nil] at hm
    obtain rfl : outer = m := by omega
    simp
  | cons token front ih =>
    rw [List.map_cons, braceCount_cons] at hm
    have hhead := h 1
    have htail := fun n => h (n + 1)
    simp only [List.map_cons, List.take_succ_cons, List.take_zero, braceCount_cons,
      braceCount_nil] at hhead htail
    rcases weight_cases outer token.kind with ⟨inner, hinner⟩ | ⟨rfl, hk⟩
    · have hfront : ∀ n, -(inner : Int) ≤ braceCount ((front.map Token.kind).take n) := by
        intro n
        have := htail n
        omega
      rw [List.cons_append, closeOffset?_cons hinner, ih hfront (by omega), Option.map_map]
      rfl
    · rw [hk, weight_closeBrace] at hhead
      omega

theorem closeOffset?_append {outer : Nat} {inner : List Token} {closing : Token}
    (h : Closes outer (inner.map Token.kind)) (hc : closing.kind = .closeBrace)
    (after : List Token) : closeOffset? outer (inner ++ closing :: after) = some inner.length := by
  have hcount := h.count_eq
  have hsearch : closeOffset? outer (inner ++ closing :: after) =
      (closeOffset? 0 (closing :: after)).map (· + inner.length) :=
    closeOffset?_append_of_nonneg h.le_count (by omega) _
  rw [hsearch, closeOffset?_cons_closeBrace hc, Option.map_some, Nat.zero_add]

theorem closeOffset?_eq_some_iff {outer n : Nat} {tokens : List Token} :
    closeOffset? outer tokens = some n ↔ ∃ inner closing after,
      tokens = inner ++ closing :: after ∧ inner.length = n ∧ closing.kind = .closeBrace ∧
      Closes outer (inner.map Token.kind) := by
  constructor
  · intro h
    induction tokens generalizing outer n with
    | nil => simp [closeOffset?] at h
    | cons token rest ih =>
      rcases weight_cases outer token.kind with ⟨m, hm⟩ | ⟨rfl, hk⟩
      · rw [closeOffset?_cons hm] at h
        obtain ⟨k, hk, rfl⟩ := Option.map_eq_some_iff.1 h
        obtain ⟨inner, closing, after, rfl, rfl, hclose, hcloses⟩ := ih hk
        exact ⟨token :: inner, closing, after, rfl, rfl, hclose, (closes_cons_iff hm).2 hcloses⟩
      · rw [closeOffset?_cons_closeBrace hk, Option.some.injEq] at h
        exact ⟨[], token, rest, rfl, h, hk, balanced_nil⟩
  · rintro ⟨inner, closing, after, rfl, rfl, hc, h⟩
    exact closeOffset?_append h hc after

theorem closeOffset?_eq_none_iff {outer : Nat} {tokens : List Token} :
    closeOffset? outer tokens = none ↔
      ∀ n, -(outer : Int) ≤ braceCount ((tokens.map Token.kind).take n) := by
  induction tokens generalizing outer with
  | nil => simp [closeOffset?]
  | cons token rest ih =>
    rcases weight_cases outer token.kind with ⟨m, hm⟩ | ⟨rfl, hk⟩
    · rw [closeOffset?_cons hm, Option.map_eq_none_iff, ih]
      constructor
      · intro h n
        cases n with
        | zero => simp
        | succ n =>
          have := h n
          rw [List.map_cons, List.take_succ_cons, braceCount_cons]
          omega
      · intro h n
        have := h (n + 1)
        rw [List.map_cons, List.take_succ_cons, braceCount_cons] at this
        omega
    · rw [closeOffset?_cons_closeBrace hk]
      constructor
      · intro h
        contradiction
      · intro h
        have := h 1
        simp [hk] at this

end FieldMask
