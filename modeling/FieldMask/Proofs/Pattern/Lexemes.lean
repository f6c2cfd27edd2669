import FieldMask.Pattern.Lexer
import FieldMask.Proofs.Text.Quoted
import Mathlib.Data.List.TakeWhile

/-!
# Lexemes

Which characters a token of each kind may stand for, said without reading them:
a structural token for its character, a key for a run of key characters that
goes on as long as it can, or for a quoted content.

Results:
* `Quoted.closingQuote?_eq_some_iff`: what stands before the closing quote is a
  content.
* `Lexeme.read_eq_ok_iff`: what is read at the head of a text is a lexeme.
* `TokenKind.Matches.head_visible`, `TokenKind.Matches.last_visible`: a lexeme neither
  starts nor ends with a blank.
-/

namespace FieldMask

/-! ## Quoted contents -/

namespace Quoted

/-- A content between quotes and the text it stands for, from left to right: a backslash
    forms an escape pair with a quote or a backslash behind it, in front of any other
    character it stands for itself, and so does every character that is neither. So a quote
    stands only in a pair, and a single backslash not last, where it would form a pair with
    the closing quote. -/
inductive Content : List Char → List Char → Prop
  | nil : Content [] []
  | pair {c : Char} {content text : List Char} (hc : isEscapable c = true)
      (rest : Content content text) : Content ('\\' :: c :: content) (c :: text)
  | backslash {c : Char} {content text : List Char} (hc : isEscapable c = false)
      (rest : Content (c :: content) text) : Content ('\\' :: c :: content) ('\\' :: text)
  | plain {c : Char} {content text : List Char} (hc : isEscapable c = false)
      (rest : Content content text) : Content (c :: content) (c :: text)

/-- The closing quote is the one behind the content. -/
theorem Content.closingQuote?_eq {content text : List Char} (h : Content content text)
    (rest : List Char) : closingQuote? (content ++ '\"' :: rest) = some content.length := by
  induction h with
  | nil => cases rest <;> simp [closingQuote?]
  | pair hc _ ih => simp [closingQuote?, hc, ih]
  | backslash hc _ ih =>
    rw [List.cons_append] at ih
    simp [closingQuote?, hc, ih]
  | plain hc _ ih => simp [closingQuote?_cons_of_not_escapable hc, ih]

theorem Content.decode_eq {content text : List Char} (h : Content content text) :
    decode content = text := by
  induction h with
  | nil => rfl
  | pair hc _ ih => simp [decode, hc, ih]
  | backslash hc _ ih => simp [decode, hc, ih]
  | plain hc _ ih => rw [decode_cons_of_not_escapable hc, ih]

/-- A character that is neither in a pair nor the closing quote stands for itself. -/
theorem Content.cons {c d : Char} {rest content text after : List Char} (hq : c ≠ '\"')
    (hc : ¬(c = '\\' ∧ isEscapable d = true)) (heq : d :: rest = content ++ '\"' :: after)
    (h : Content content text) : Content (c :: content) (c :: text) := by
  by_cases hb : c = '\\'
  · subst hb
    have hd : isEscapable d = false := by simpa using hc
    cases content with
    | nil =>
      obtain ⟨rfl, -⟩ := List.cons.inj heq
      contradiction
    | cons e content =>
      obtain ⟨rfl, -⟩ := List.cons.inj heq
      exact .backslash hd h
  · exact .plain (by simp [isEscapable, hq, hb]) h

/-- What stands before the closing quote is a content. -/
theorem exists_content {chars : List Char} {n : Nat} (h : closingQuote? chars = some n) :
    ∃ content text rest, chars = content ++ '\"' :: rest ∧ content.length = n ∧
      Content content text := by
  fun_induction closingQuote? chars generalizing n with
  | case1 => contradiction
  | case2 =>
    obtain rfl := Option.some.inj h
    exact ⟨[], [], [], rfl, rfl, .nil⟩
  | case3 => contradiction
  | case4 d rest =>
    obtain rfl := Option.some.inj h
    exact ⟨[], [], d :: rest, rfl, rfl, .nil⟩
  | case5 c d rest hq hc ih =>
    simp only [Bool.and_eq_true, decide_eq_true_eq] at hc
    obtain ⟨rfl, hd⟩ := hc
    obtain ⟨m, hm, rfl⟩ := Option.map_eq_some_iff.1 h
    obtain ⟨content, text, after, rfl, rfl, hcontent⟩ := ih hm
    exact ⟨'\\' :: d :: content, d :: text, after, rfl, rfl, .pair hd hcontent⟩
  | case6 c d rest hq hc ih =>
    simp only [Bool.and_eq_true, decide_eq_true_eq] at hc
    obtain ⟨m, hm, rfl⟩ := Option.map_eq_some_iff.1 h
    obtain ⟨content, text, after, heq, rfl, hcontent⟩ := ih hm
    exact ⟨c :: content, c :: text, after, by simp [heq], rfl, hcontent.cons hq hc heq⟩

theorem closingQuote?_eq_some_iff {chars : List Char} {n : Nat} :
    closingQuote? chars = some n ↔ ∃ content text rest,
      chars = content ++ '\"' :: rest ∧ content.length = n ∧ Content content text := by
  constructor
  · exact exists_content
  · rintro ⟨content, text, rest, rfl, rfl, h⟩
    exact h.closingQuote?_eq rest

end Quoted

/-! ## The lexemes of a kind -/

namespace TokenKind

/-- Whether a token of the kind stands for `slice` in front of `after`. -/
inductive Matches : TokenKind → (slice after : List Char) → Prop
  | openBrace {after : List Char} : Matches openBrace ['\x7b'] after
  | closeBrace {after : List Char} : Matches closeBrace ['\x7d'] after
  | comma {after : List Char} : Matches comma [','] after
  | colon {after : List Char} : Matches colon [':'] after
  | unquoted {slice after : List Char} (hk : ∀ c ∈ slice, isKeyCharacter c = true)
      (ha : ∀ c ∈ after.head?, isKeyCharacter c = false) :
      Matches (text (String.ofList slice)) slice after
  | quoted {content key after : List Char} (h : Quoted.Content content key) :
      Matches (text (String.ofList key)) ('\"' :: (content ++ ['\"'])) after

end TokenKind

/-- Key characters are ASCII characters above the blank ones. -/
theorem toNat_of_isKeyCharacter {c : Char} (h : isKeyCharacter c = true) :
    0x21 ≤ c.toNat ∧ c.toNat ≤ 0x7a := by
  unfold isKeyCharacter at h
  simp only [Bool.or_eq_true, decide_eq_true_eq] at h
  rcases h with ((h | rfl) | rfl) | rfl
  · unfold Char.isAlphanum Char.isAlpha Char.isUpper Char.isLower Char.isDigit at h
    simp only [Bool.or_eq_true, Bool.and_eq_true, decide_eq_true_eq, ge_iff_le,
      UInt32.le_iff_toNat_le] at h
    have hc : c.toNat = c.val.toNat := rfl
    have hA : 'A'.val.toNat = 65 := rfl
    have hZ : 'Z'.val.toNat = 90 := rfl
    have ha : 'a'.val.toNat = 97 := rfl
    have hz : 'z'.val.toNat = 122 := rfl
    have h0 : '0'.val.toNat = 48 := rfl
    have h9 : '9'.val.toNat = 57 := rfl
    omega
  all_goals decide

theorem isBlank_of_isKeyCharacter {c : Char} (h : isKeyCharacter c = true) : isBlank c = false := by
  have hc := toNat_of_isKeyCharacter h
  rw [← Bool.not_eq_true, isBlank, CharClass.contains_iff rising_whiteSpace]
  rintro ⟨r, hr, hle⟩
  simp only [whiteSpace, List.mem_cons, List.not_mem_nil, or_false] at hr
  rcases hr with rfl | rfl | rfl | rfl | rfl | rfl | rfl | rfl | rfl | rfl <;> simp at hle <;> omega

namespace TokenKind.Matches

variable {kind : TokenKind} {slice after : List Char} (h : kind.Matches slice after)

include h

theorem head_visible : ∀ c ∈ slice.head?, isBlank c = false := by
  intro c hc
  cases h with
  | unquoted hk ha => exact isBlank_of_isKeyCharacter (hk c (List.mem_of_mem_head? hc))
  | _ =>
    obtain rfl := Option.some.inj hc
    rfl

theorem last_visible : ∀ c ∈ slice.getLast?, isBlank c = false := by
  intro c hc
  cases h with
  | unquoted hk ha => exact isBlank_of_isKeyCharacter (hk c (List.mem_of_mem_getLast? hc))
  | quoted h =>
    rw [← List.cons_append, List.getLast?_concat] at hc
    obtain rfl := Option.some.inj hc
    rfl
  | _ =>
    obtain rfl := Option.some.inj hc
    rfl

end TokenKind.Matches

theorem ne_quote_of_isKeyCharacter {c : Char} (h : isKeyCharacter c = true) : c ≠ '\"' := by
  rintro rfl
  contradiction

theorem structural?_of_isKeyCharacter {c : Char} (h : isKeyCharacter c = true) :
    TokenKind.structural? c = none := by
  unfold TokenKind.structural?
  split <;> first | rfl | contradiction

/-! ## Reading a lexeme -/

namespace Lexeme

theorem takeWhile_append_of_head {p : Char → Bool} {tail after : List Char}
    (ht : ∀ c ∈ tail, p c = true) (ha : ∀ c ∈ after.head?, p c = false) :
    (tail ++ after).takeWhile p = tail := by
  rw [List.takeWhile_append_of_pos ht]
  cases after with
  | nil => simp
  | cons c after => simp [ha c rfl]

theorem ofQuoted_eq_ok_iff {rest : List Char} {kind : TokenKind} {more : Nat} :
    ofQuoted rest = .ok ⟨kind, more⟩ ↔ ∃ content key after,
      rest = content ++ '\"' :: after ∧ more = content.length + 1 ∧
      Quoted.Content content key ∧ kind = .text (String.ofList key) := by
  unfold ofQuoted
  constructor
  · intro h
    split at h
    · next n hn =>
      obtain ⟨content, key, after, rfl, rfl, hc⟩ := Quoted.closingQuote?_eq_some_iff.1 hn
      rw [List.take_left, Quoted.unescape, Quoted.collapse_collapse, hc.decode_eq] at h
      obtain ⟨rfl, rfl⟩ := Lexeme.mk.inj (Except.ok.inj h)
      exact ⟨content, key, after, rfl, rfl, hc, rfl⟩
    · contradiction
  · rintro ⟨content, key, after, rfl, rfl, hc, rfl⟩
    rw [hc.closingQuote?_eq]
    simp [Quoted.unescape, Quoted.collapse_collapse, hc.decode_eq]

theorem matches_of_structural? {c : Char} {kind : TokenKind}
    (h : TokenKind.structural? c = some kind) (after : List Char) : kind.Matches [c] after := by
  unfold TokenKind.structural? at h
  split at h <;> cases h
  · exact .openBrace
  · exact .closeBrace
  · exact .comma
  · exact .colon

/-- The run of key characters at the start of a text does not go on. -/
theorem isKeyCharacter_of_head?_dropWhile {text : List Char} {d : Char}
    (h : d ∈ (text.dropWhile isKeyCharacter).head?) : isKeyCharacter d = false := by
  have := List.head?_dropWhile_not isKeyCharacter text
  rw [h] at this
  simpa using this

theorem matches_ofKey {c : Char} (hc : isKeyCharacter c = true) (rest : List Char) :
    (ofKey c rest).kind.Matches (c :: rest.takeWhile isKeyCharacter)
      (rest.dropWhile isKeyCharacter) := by
  refine .unquoted (fun d hd => ?_) fun d hd => isKeyCharacter_of_head?_dropWhile hd
  rcases List.mem_cons.1 hd with rfl | hd
  · exact hc
  · exact List.mem_takeWhile_imp hd

/-- A token is read exactly from its lexemes. -/
theorem read_eq_ok_iff {c : Char} {rest : List Char} {kind : TokenKind} {more : Nat} :
    read c rest = .ok ⟨kind, more⟩ ↔ ∃ tail after,
      rest = tail ++ after ∧ tail.length = more ∧ kind.Matches (c :: tail) after := by
  constructor
  · intro h
    unfold read at h
    split at h
    next hq =>
      obtain ⟨content, key, after, rfl, rfl, hc, rfl⟩ := ofQuoted_eq_ok_iff.1 h
      subst hq
      exact ⟨content ++ ['\"'], after, by simp, by simp, .quoted hc⟩
    next hq =>
      split at h
      next kind' hk =>
        obtain ⟨rfl, rfl⟩ := Lexeme.mk.inj (Except.ok.inj h)
        exact ⟨[], rest, rfl, rfl, matches_of_structural? hk rest⟩
      next =>
        split at h
        next hk =>
          obtain ⟨rfl, rfl⟩ := Lexeme.mk.inj (Except.ok.inj h)
          exact ⟨rest.takeWhile isKeyCharacter, rest.dropWhile isKeyCharacter,
            List.takeWhile_append_dropWhile.symm, rfl, matches_ofKey hk rest⟩
        next => contradiction
  · rintro ⟨tail, after, rfl, rfl, hm⟩
    generalize hs : c :: tail = slice at hm
    cases hm with
    | openBrace | closeBrace | comma | colon =>
      obtain ⟨rfl, rfl⟩ := List.cons.inj hs
      rfl
    | unquoted hk ha =>
      subst hs
      have hc := hk c List.mem_cons_self
      have htail := takeWhile_append_of_head (fun d hd => hk d (List.mem_cons_of_mem _ hd)) ha
      rw [read, if_neg (ne_quote_of_isKeyCharacter hc), structural?_of_isKeyCharacter hc]
      simp [hc, ofKey, htail]
    | @quoted content key after h =>
      obtain ⟨rfl, rfl⟩ := List.cons.inj hs
      rw [read, if_pos rfl, ofQuoted_eq_ok_iff]
      exact ⟨content, key, after, by simp, by simp, h, rfl⟩

end Lexeme

end FieldMask
