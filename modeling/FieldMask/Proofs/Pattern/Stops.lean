import FieldMask.Proofs.Pattern.Segments
import FieldMask.Proofs.Text.Backslashes

/-!
# Where reading tokens stops

Reading tokens stops at the first character that starts no token, or at a quote
that is never closed. What stands before it is read as if nothing followed:
where no unquoted key goes on from one text into the next, reading both is
reading one after the other.

Results:
* `tokenizeFrom_append`: a text is read piece by piece.
* `tokenizeFrom_eq_error_iff`: an error is that of the character behind a text that is read.
* `tokenize_eq_error_iff`: the two ways to stop, and where.
-/

namespace FieldMask

/-- No unquoted key goes on from one text into the next. -/
def Apart (front back : List Char) : Prop :=
  ∀ c ∈ front.getLast?, isKeyCharacter c = true → ∀ d ∈ back.head?, isKeyCharacter d = false

/-- A character that is none of those that stand in a pattern outside of quotes. -/
def IsStray (c : Char) : Prop :=
  isBlank c = false ∧ c ∉ ['\"', '\x7b', '\x7d', ',', ':'] ∧ isKeyCharacter c = false

instance (c : Char) : Decidable (IsStray c) :=
  inferInstanceAs (Decidable (_ ∧ _ ∧ _))

/-- No token can be read that starts with the character in front of the others. -/
inductive Stops : Char → List Char → Fault → Prop where
  | stray {c : Char} {rest : List Char} (hc : IsStray c) : Stops c rest .strayCharacter
  | unclosed {rest : List Char} (h : Quoted.closingQuote? rest = none) :
      Stops '\"' rest .unclosedQuote

/-! ## Lexemes and what follows them -/

section Apart

variable {front middle back : List Char}

theorem Apart.of_append (front : List Char) (h : Apart (front ++ middle) back) :
    Apart middle back := by
  intro c hc
  refine h c ?_
  rw [List.getLast?_append, hc]
  rfl

theorem apart_of_head (h : ∀ d ∈ back.head?, isKeyCharacter d = false) : Apart front back :=
  fun _ _ _ => h

end Apart

namespace TokenKind.Matches

variable {kind : TokenKind} {slice after more : List Char}

/-- A token stands for its lexeme also where less follows. -/
theorem of_append (h : kind.Matches slice (after ++ more)) : kind.Matches slice after := by
  cases h with
  | openBrace => exact .openBrace
  | closeBrace => exact .closeBrace
  | comma => exact .comma
  | colon => exact .colon
  | unquoted hk ha =>
    refine .unquoted hk fun c hc => ha c ?_
    rw [List.head?_append, hc]
    rfl
  | quoted h => exact .quoted h

/-- A token stands for its lexeme also where more follows that does not make the key longer. -/
theorem append (h : kind.Matches slice after) (hne : slice ≠ [])
    (ha : Apart (slice ++ after) more) : kind.Matches slice (after ++ more) := by
  cases h with
  | openBrace => exact .openBrace
  | closeBrace => exact .closeBrace
  | comma => exact .comma
  | colon => exact .colon
  | unquoted hk hafter =>
    refine .unquoted hk fun d hd => ?_
    cases after with
    | nil =>
      rw [List.append_nil] at ha
      exact ha _ (List.getLast?_eq_some_getLast hne) (hk _ (List.getLast_mem hne)) d hd
    | cons c after => exact hafter d hd
  | quoted h => exact .quoted h

end TokenKind.Matches

/-! ## Reading piece by piece -/

theorem Lexeme.read_append {c : Char} {tail after more : List Char} {kind : TokenKind}
    (h : kind.Matches (c :: tail) after) (ha : Apart (c :: tail ++ after) more) :
    Lexeme.read c (tail ++ (after ++ more)) = .ok ⟨kind, tail.length⟩ :=
  read_eq_ok_iff.2 ⟨tail, after ++ more, rfl, rfl, h.append (List.cons_ne_nil c tail) ha⟩

/-- By induction along the reader: what it takes at the head of the front is read there again. -/
theorem tokenizeFrom_append {position : Nat} {front back : List Char} {tokens : List Token}
    (h : tokenizeFrom position front = .ok tokens) (ha : Apart front back) :
    tokenizeFrom position (front ++ back) =
      (tokenizeFrom (position + front.length) back).map (tokens ++ ·) := by
  fun_induction tokenizeFrom position front generalizing tokens with
  | case1 position =>
    obtain rfl := Except.ok.inj h
    cases hback : tokenizeFrom position back <;> simp [hback, Except.map]
  | case2 position c rest hb ih =>
    rw [List.cons_append, tokenizeFrom_cons_of_isBlank hb, ih h (ha.of_append [c]),
      List.length_cons, Nat.add_assoc, Nat.add_comm 1]
  | case3 position c rest hb fault hread => contradiction
  | case4 position c rest hb kind more hread ih =>
    obtain ⟨others, hothers, rfl⟩ := map_eq_ok_iff.1 h
    obtain ⟨tail, after, rfl, rfl, hm⟩ := Lexeme.read_eq_ok_iff.1 hread
    rw [List.drop_left] at hothers ih
    have hrest := ih hothers (ha.of_append (c :: tail))
    have hlength : position + (c :: (tail ++ after)).length =
        position + 1 + tail.length + after.length := by
      simp only [List.length_cons, List.length_append]
      omega
    rw [List.cons_append, List.append_assoc,
      tokenizeFrom_cons_of_ok (by simpa using hb) (Lexeme.read_append hm ha), List.drop_left,
      hrest, hlength]
    cases tokenizeFrom (position + 1 + tail.length + after.length) back <;> rfl

/-! ## Errors -/

section Stops

variable {c : Char} {rest : List Char} {fault : Fault}

theorem structural?_eq_none_iff :
    TokenKind.structural? c = none ↔ c ∉ ['\x7b', '\x7d', ',', ':'] := by
  unfold TokenKind.structural?
  split <;> simp_all

theorem read_eq_error_iff (hb : isBlank c = false) :
    Lexeme.read c rest = .error fault ↔ Stops c rest fault := by
  constructor
  · intro h
    unfold Lexeme.read at h
    split at h
    next hq =>
      subst hq
      unfold Lexeme.ofQuoted at h
      split at h
      next => contradiction
      next hnone =>
        obtain rfl := Except.error.inj h
        exact .unclosed hnone
    next hq =>
      split at h
      next => contradiction
      next hs =>
        split at h
        next => contradiction
        next hk =>
          obtain rfl := Except.error.inj h
          refine .stray ⟨hb, ?_, by simpa using hk⟩
          rw [structural?_eq_none_iff] at hs
          exact List.not_mem_cons_of_ne_of_not_mem hq hs
  · intro h
    cases h with
    | stray hc =>
      obtain ⟨-, hne, hk⟩ := hc
      obtain ⟨hq, hs⟩ := List.ne_and_not_mem_of_not_mem_cons hne
      rw [Lexeme.read, if_neg hq, structural?_eq_none_iff.2 hs]
      exact if_neg (by simp [hk])
    | unclosed hnone =>
      rw [Lexeme.read, if_pos rfl, Lexeme.ofQuoted, hnone]

namespace Stops

variable (h : Stops c rest fault)

include h

theorem isBlank_eq_false : isBlank c = false := by
  cases h with
  | stray hc => exact hc.1
  | unclosed => rfl

theorem isKeyCharacter_eq_false : isKeyCharacter c = false := by
  cases h with
  | stray hc => exact hc.2.2
  | unclosed => rfl

end Stops

end Stops

/-- An error is that of the first character behind a text that is read by itself. -/
theorem tokenizeFrom_eq_error_iff {position : Nat} {chars : List Char} {error : PatternError} :
    tokenizeFrom position chars = .error error ↔ ∃ before c after fault,
      chars = before ++ c :: after ∧ (∃ tokens, tokenizeFrom position before = .ok tokens) ∧
      Stops c after fault ∧ error = fault.spanning ⟨position + before.length, 1⟩ := by
  constructor
  · intro h
    fun_induction tokenizeFrom position chars with
    | case1 position => contradiction
    | case2 position c rest hb ih =>
      obtain ⟨before, d, after, fault, rfl, ⟨tokens, ht⟩, hstops, rfl⟩ := ih h
      refine ⟨c :: before, d, after, fault, rfl, ⟨tokens, ?_⟩, hstops, ?_⟩
      · rw [tokenizeFrom_cons_of_isBlank hb, ht]
      · rw [List.length_cons, Nat.add_assoc, Nat.add_comm 1]
    | case3 position c rest hb fault hread =>
      have hstops : Stops c rest fault := (read_eq_error_iff (by simpa using hb)).1 hread
      exact ⟨[], c, rest, fault, rfl, ⟨[], tokenizeFrom_nil position⟩, hstops,
        (Except.error.inj h).symm⟩
    | case4 position c rest hb kind more hread ih =>
      rw [map_eq_error_iff] at h
      obtain ⟨before, d, after, fault, hdrop, ⟨tokens, ht⟩, hstops, rfl⟩ := ih h
      obtain ⟨tail, left, rfl, rfl, hm⟩ := Lexeme.read_eq_ok_iff.1 hread
      rw [List.drop_left] at hdrop
      subst hdrop
      -- What was read as a token in front of the whole rest is read again in front of a part of it.
      have hcut : Lexeme.read c (tail ++ before) = .ok ⟨kind, tail.length⟩ :=
        Lexeme.read_eq_ok_iff.2 ⟨tail, before, rfl, rfl, hm.of_append⟩
      have hlength : position + (c :: (tail ++ before)).length =
          position + 1 + tail.length + before.length := by
        simp only [List.length_cons, List.length_append]
        omega
      refine ⟨c :: (tail ++ before), d, after, fault, by simp, ?_, hstops, by rw [hlength]⟩
      rw [tokenizeFrom_cons_of_ok (by simpa using hb) hcut, List.drop_left, ht]
      exact ⟨_, rfl⟩
  · rintro ⟨before, c, after, fault, rfl, ⟨tokens, ht⟩, hstops, rfl⟩
    have ha : Apart before (c :: after) :=
      apart_of_head (by simpa using hstops.isKeyCharacter_eq_false)
    have hread := (read_eq_error_iff hstops.isBlank_eq_false).2 hstops
    rw [tokenizeFrom_append ht ha, tokenizeFrom_cons_of_error hstops.isBlank_eq_false hread]
    rfl

/-- What stands in front of an index of a pattern is read by itself. -/
def ReadsTo (pattern : String) (i : Nat) : Prop :=
  ∃ tokens, tokenize (String.ofList (pattern.toList.take i)) = .ok tokens

theorem tokenize_eq_error_spanning_iff {pattern : String} {i : Nat} {fault : Fault} :
    tokenize pattern = .error (fault.spanning ⟨i, 1⟩) ↔ ReadsTo pattern i ∧
      ∃ c, pattern.toList[i]? = some c ∧ Stops c (pattern.toList.drop (i + 1)) fault := by
  rw [ReadsTo, tokenize, tokenize, String.toList_ofList, tokenizeFrom_eq_error_iff]
  constructor
  · rintro ⟨before, c, after, fault', hsplit, ht, hstops, heq⟩
    obtain ⟨rfl, hspan, -⟩ := PatternError.mk.inj heq
    obtain ⟨rfl, -⟩ := Span.mk.inj hspan
    rw [hsplit, Nat.zero_add]
    exact ⟨by simpa using ht, c, by simp, by simpa using hstops⟩
  · rintro ⟨ht, c, hc, hstops⟩
    obtain ⟨hlt, rfl⟩ := List.getElem?_eq_some_iff.1 hc
    refine ⟨pattern.toList.take i, _, _, fault, ?_, ht, hstops, ?_⟩
    · rw [List.getElem_cons_drop, List.take_append_drop]
    · rw [List.length_take_of_le (Nat.le_of_lt hlt), Nat.zero_add]

theorem tokenize_eq_stray_iff {pattern : String} {i : Nat} :
    tokenize pattern = .error (Fault.strayCharacter.spanning ⟨i, 1⟩) ↔
      ReadsTo pattern i ∧ ∃ c, pattern.toList[i]? = some c ∧ IsStray c := by
  rw [tokenize_eq_error_spanning_iff]
  constructor
  · rintro ⟨ht, c, hc, hstops⟩
    cases hstops with
    | stray hstray => exact ⟨ht, c, hc, hstray⟩
  · rintro ⟨ht, c, hc, hstray⟩
    exact ⟨ht, c, hc, .stray hstray⟩

/-- Reading the tokens of a pattern stops behind a part that is read by itself, at a stray
    character, whatever follows it, or at a quote behind which every quote is escaped. -/
theorem tokenize_eq_error_iff (pattern : String) :
    (∀ i, tokenize pattern = .error (Fault.strayCharacter.spanning ⟨i, 1⟩) ↔
      ReadsTo pattern i ∧ ∃ c, pattern.toList[i]? = some c ∧ IsStray c) ∧
    (∀ i, tokenize pattern = .error (Fault.unclosedQuote.spanning ⟨i, 1⟩) ↔
      ReadsTo pattern i ∧ pattern.toList[i]? = some '\"' ∧
        ∀ q, i < q → pattern.toList[q]? = some '\"' →
          Quoted.backslashesBefore pattern.toList i q % 2 = 1) ∧
    (∀ error, tokenize pattern = .error error → ∃ i,
      error = Fault.strayCharacter.spanning ⟨i, 1⟩ ∨
        error = Fault.unclosedQuote.spanning ⟨i, 1⟩) ∧
    ∀ i, tokenize pattern = .error (Fault.strayCharacter.spanning ⟨i, 1⟩) →
      ∀ other : String, other.toList.take (i + 1) = pattern.toList.take (i + 1) →
        tokenize other = .error (Fault.strayCharacter.spanning ⟨i, 1⟩) := by
  refine ⟨fun i => tokenize_eq_stray_iff, fun i => ?_, fun error h => ?_, fun i h other heq => ?_⟩
  · rw [tokenize_eq_error_spanning_iff, ← Quoted.closingQuote?_drop_eq_none_iff]
    constructor
    · rintro ⟨ht, c, hc, hstops⟩
      cases hstops with
      | unclosed hnone => exact ⟨ht, hc, hnone⟩
    · rintro ⟨ht, hc, hnone⟩
      exact ⟨ht, _, hc, .unclosed hnone⟩
  · obtain ⟨before, c, after, fault, -, -, hstops, rfl⟩ := tokenizeFrom_eq_error_iff.1 h
    cases hstops with
    | stray hc => exact ⟨_, .inl rfl⟩
    | unclosed hnone => exact ⟨_, .inr rfl⟩
  · obtain ⟨ht, c, hc, hstray⟩ := tokenize_eq_stray_iff.1 h
    have hbefore : other.toList.take i = pattern.toList.take i := by
      have := congrArg (List.take i) heq
      simpa [List.take_take] using this
    have hat : other.toList[i]? = pattern.toList[i]? := by
      have := congrArg (·[i]?) heq
      simpa using this
    refine tokenize_eq_stray_iff.2 ⟨?_, c, hat.trans hc, hstray⟩
    rwa [ReadsTo, hbefore]

theorem tokenize_eq_error_iff_stops :
    tokenize "\x7ba!\"" = .error (Fault.strayCharacter.spanning ⟨2, 1⟩) ∧
      tokenize "\x7ba!" = .error (Fault.strayCharacter.spanning ⟨2, 1⟩) ∧
      tokenize ",\"a\\\"" = .error (Fault.unclosedQuote.spanning ⟨1, 1⟩) := by
  obtain ⟨hstray, -, -, hfollowed⟩ := tokenize_eq_error_iff "\x7ba!\""
  obtain ⟨-, hunclosed, -, -⟩ := tokenize_eq_error_iff ",\"a\\\""
  have htokens : tokenizeFrom 0 ['\x7b', 'a'] =
      .ok [⟨.openBrace, ⟨0, 1⟩⟩, ⟨.text "a", ⟨1, 1⟩⟩] := by
    rw [tokenizeFrom_cons_of_ok rfl rfl, List.drop_zero, tokenizeFrom_cons_of_ok rfl rfl,
      List.drop_nil, tokenizeFrom_nil]
    rfl
  have hcomma : tokenizeFrom 0 [','] = .ok [⟨.comma, ⟨0, 1⟩⟩] := by
    rw [tokenizeFrom_cons_of_ok rfl rfl, List.drop_nil, tokenizeFrom_nil]
    rfl
  have hodd : ∀ q, 1 < q → [',', '\"', 'a', '\\', '\"'][q]? = some '\"' →
      Quoted.backslashesBefore [',', '\"', 'a', '\\', '\"'] 1 q % 2 = 1 := by
    intro q hlt hq
    obtain ⟨hlength, -⟩ := List.getElem?_eq_some_iff.1 hq
    match q with
    | 2 | 3 => simp at hq
    | 4 => rfl
  have hbad := (hstray 2).2 ⟨⟨_, htokens⟩, '!', rfl, by decide⟩
  exact ⟨hbad, hfollowed 2 hbad _ rfl, (hunclosed 1).2 ⟨⟨_, hcomma⟩, rfl, hodd⟩⟩

end FieldMask
