import FieldMask.Proofs.Pattern.Stops
import Mathlib.Data.List.DropRight

/-!
# Patterns put together

A text that is read by itself is read the same with another text behind it,
and the other text is read where it then stands: its tokens and its error move
right by what is in front. Blanks between the two change nothing but places.

The exception is an unquoted key at the end of the first text with key
characters directly behind it. The two keys are then read as one, and all other
tokens stay what they are.

Results:
* `tokenizeFrom_add`: what is read moves along with the text.
* `tokenizeFrom_key`: a run of key characters is one key.
* `exists_tokens_before_key`: what stands in front of key characters is read by itself.
* `tokenizeFrom_touching`: two texts with key characters on both sides of the border.
* `tokenize_joined`: what is read of two texts with blanks or nothing between them.
-/

namespace FieldMask

/-! ## Places -/

/-- What is read of a text, when the text stands further to the right. -/
def shiftOutcome (offset : Nat) :
    Except PatternError (List Token) → Except PatternError (List Token)
  | .ok tokens => .ok (tokens.map (Token.shift · offset))
  | .error error => .error (error.shift offset)

theorem shiftOutcome_map_cons (offset : Nat) (token : Token)
    (outcome : Except PatternError (List Token)) :
    shiftOutcome offset (outcome.map (token :: ·)) =
      (shiftOutcome offset outcome).map (token.shift offset :: ·) := by
  cases outcome <;> rfl

/-- By induction along the reader, which only passes the position on. -/
theorem tokenizeFrom_add (offset position : Nat) (chars : List Char) :
    tokenizeFrom (position + offset) chars = shiftOutcome offset (tokenizeFrom position chars) := by
  fun_induction tokenizeFrom position chars with
  | case1 position =>
    rw [tokenizeFrom_nil]
    rfl
  | case2 position c rest hb ih =>
    rw [tokenizeFrom_cons_of_isBlank hb, Nat.add_right_comm, ih]
  | case3 position c rest hb fault hread =>
    rw [tokenizeFrom_cons_of_error (by simpa using hb) hread]
    rfl
  | case4 position c rest hb kind more hread ih =>
    have hplace : position + offset + 1 + more = position + 1 + more + offset := by omega
    rw [tokenizeFrom_cons_of_ok (by simpa using hb) hread, hplace, ih, shiftOutcome_map_cons]
    rfl

/-! ## Blanks -/

/-- Blanks in front are skipped. -/
theorem tokenizeFrom_blanks {blanks : List Char} (hw : ∀ c ∈ blanks, isBlank c = true)
    (position : Nat) (rest : List Char) :
    tokenizeFrom position (blanks ++ rest) = tokenizeFrom (position + blanks.length) rest := by
  induction blanks generalizing position with
  | nil => rfl
  | cons c blanks ih =>
    obtain ⟨hc, hblanks⟩ := List.forall_mem_cons.1 hw
    rw [List.cons_append, tokenizeFrom_cons_of_isBlank hc, ih hblanks, List.length_cons,
      Nat.add_assoc, Nat.add_comm 1]

/-- Texts with a blank between them are apart. -/
theorem apart_blanks_append {front blanks back : List Char} (hw : ∀ c ∈ blanks, isBlank c = true)
    (h : blanks ≠ [] ∨ Apart front back) : Apart front (blanks ++ back) := by
  cases blanks with
  | nil => exact h.resolve_left fun hne => hne rfl
  | cons c blanks =>
    refine apart_of_head fun d hd => ?_
    obtain rfl := Option.some.inj hd
    have hc := hw c List.mem_cons_self
    by_contra hk
    rw [isBlank_of_isKeyCharacter (by simpa using hk)] at hc
    contradiction

/-! ## Keys at the border -/

section Keys

variable {position : Nat} {key rest : List Char}

/-- A run of key characters that does not go on is one key. -/
theorem tokenizeFrom_key (hne : key ≠ []) (hk : ∀ c ∈ key, isKeyCharacter c = true)
    (hr : ∀ d ∈ rest.head?, isKeyCharacter d = false) :
    tokenizeFrom position (key ++ rest) = (tokenizeFrom (position + key.length) rest).map
      (Token.ofText (String.ofList key) position key.length :: ·) := by
  cases key with
  | nil => contradiction
  | cons c tail =>
    have hread : Lexeme.read c (tail ++ rest) =
        .ok ⟨.text (String.ofList (c :: tail)), tail.length⟩ :=
      Lexeme.read_eq_ok_iff.2 ⟨tail, rest, rfl, rfl, .unquoted hk hr⟩
    have hc := isBlank_of_isKeyCharacter (hk c List.mem_cons_self)
    rw [List.cons_append, tokenizeFrom_cons_of_ok hc hread, List.drop_left, List.length_cons,
      Nat.add_assoc, Nat.add_comm 1]
    rfl

/-- Behind key characters no quote closes what was not closed before them. -/
theorem Stops.append_key {c : Char} {fault : Fault} (h : Stops c rest fault)
    (hk : ∀ d ∈ key, isKeyCharacter d = true) : Stops c (rest ++ key) fault := by
  cases h with
  | stray hc => exact .stray hc
  | unclosed hnone =>
    refine .unclosed (Quoted.closingQuote?_eq_none_iff.2 fun q hq => ?_)
    obtain ⟨hquote, heven⟩ := hq
    rcases Nat.lt_or_ge q rest.length with hlt | hge
    · -- A quote among the old characters has the same backslashes before it.
      rw [List.getElem?_append_left hlt] at hquote
      rw [List.take_append_of_le_length (Nat.le_of_lt hlt)] at heven
      exact Quoted.closingQuote?_eq_none_iff.1 hnone q ⟨hquote, heven⟩
    · rw [List.getElem?_append_right hge] at hquote
      exact ne_quote_of_isKeyCharacter (hk _ (List.mem_of_getElem? hquote)) rfl

/-- What stands in front of a run of key characters is read by itself, if all of it is read. -/
theorem exists_tokens_before_key {front : List Char} {tokens : List Token}
    (h : tokenizeFrom position (front ++ key) = .ok tokens)
    (hk : ∀ c ∈ key, isKeyCharacter c = true) :
    ∃ before, tokenizeFrom position front = .ok before := by
  cases hf : tokenizeFrom position front with
  | ok before => exact ⟨before, rfl⟩
  | error error =>
    obtain ⟨before, c, after, fault, rfl, ht, hstops, rfl⟩ := tokenizeFrom_eq_error_iff.1 hf
    rw [List.append_assoc, List.cons_append, tokenizeFrom_eq_error_iff.2
      ⟨before, c, after ++ key, fault, rfl, ht, hstops.append_key hk, rfl⟩] at h
    contradiction

/-- The key characters at the end of a text, as many as there are. -/
theorem exists_last_run (text : List Char) : ∃ front key, text = front ++ key ∧
    (∀ c ∈ key, isKeyCharacter c = true) ∧ ∀ c ∈ front.getLast?, isKeyCharacter c = false := by
  refine ⟨text.rdropWhile isKeyCharacter, text.rtakeWhile isKeyCharacter,
    List.rdropWhile_append_rtakeWhile.symm, fun c => List.mem_rtakeWhile_imp, fun c hc => ?_⟩
  obtain ⟨hne, rfl⟩ := List.mem_getLast?_eq_getLast hc
  simpa using List.rdropWhile_last_not isKeyCharacter text hne

end Keys

/-- Two unquoted keys, the one directly behind the other, are read as one: tokens that end
    with the first key, tokens that start with the second, and what becomes of them. -/
inductive Merges : (front back whole : List Token) → Prop
  | mk {before after : List Token} {key more : List Char} {position : Nat}
      (hkey : key ≠ []) (hmore : more ≠ []) (hk : ∀ c ∈ key ++ more, isKeyCharacter c = true) :
      Merges (before ++ [Token.ofText (String.ofList key) position key.length])
        (Token.ofText (String.ofList more) (position + key.length) more.length :: after)
        (before ++
          Token.ofText (String.ofList (key ++ more)) position (key ++ more).length :: after)

theorem apart_of_last {front back : List Char}
    (h : ∀ c ∈ front.getLast?, isKeyCharacter c = false) : Apart front back := by
  intro c hc hk
  rw [h c hc] at hk
  contradiction

/-- Texts that are not apart have a key in two parts between them. -/
theorem exists_key_between {front back : List Char} (h : ¬Apart front back) :
    ∃ start key more rest, front = start ++ key ∧ back = more ++ rest ∧ key ≠ [] ∧ more ≠ [] ∧
      (∀ c ∈ key ++ more, isKeyCharacter c = true) ∧
      (∀ c ∈ start.getLast?, isKeyCharacter c = false) ∧
      ∀ d ∈ rest.head?, isKeyCharacter d = false := by
  obtain ⟨start, key, rfl, hk, hstart⟩ := exists_last_run front
  have hkey : key ≠ [] := by
    rintro rfl
    rw [List.append_nil] at h
    exact h (apart_of_last hstart)
  have hrest : ∀ d ∈ (back.dropWhile isKeyCharacter).head?, isKeyCharacter d = false :=
    fun d hd => Lexeme.isKeyCharacter_of_head?_dropWhile hd
  have hmore : back.takeWhile isKeyCharacter ≠ [] := by
    intro hnil
    have hback := List.takeWhile_append_dropWhile (p := isKeyCharacter) (l := back)
    rw [hnil, List.nil_append] at hback
    rw [hback] at hrest
    exact h (apart_of_head hrest)
  refine ⟨start, key, back.takeWhile isKeyCharacter, back.dropWhile isKeyCharacter, rfl,
    List.takeWhile_append_dropWhile.symm, hkey, hmore, fun c hc => ?_, hstart, hrest⟩
  rcases List.mem_append.1 hc with hc | hc
  · exact hk c hc
  · exact List.mem_takeWhile_imp hc

/-- Where two texts are not apart, the keys at the border are read as one. -/
theorem tokenizeFrom_touching {position : Nat} {front back : List Char} {tokens : List Token}
    (h : tokenizeFrom position front = .ok tokens) (ht : ¬Apart front back) :
    (∀ others, tokenizeFrom (position + front.length) back = .ok others →
      ∃ whole, tokenizeFrom position (front ++ back) = .ok whole ∧ Merges tokens others whole) ∧
    ∀ error, tokenizeFrom (position + front.length) back = .error error →
      tokenizeFrom position (front ++ back) = .error error := by
  obtain ⟨start, key, more, rest, rfl, rfl, hkey, hmore, hk, hstart, hrest⟩ := exists_key_between ht
  obtain ⟨hkey', hmore'⟩ := List.forall_mem_append.1 hk
  obtain ⟨before, hbefore⟩ := exists_tokens_before_key h hkey'
  have hp : position + (start ++ key).length = position + start.length + key.length := by
    rw [List.length_append, Nat.add_assoc]
  have hq : position + start.length + (key ++ more).length =
      position + start.length + key.length + more.length := by
    rw [List.length_append, Nat.add_assoc, Nat.add_assoc, Nat.add_assoc]
  -- The first text, the second one and both, each cut where its key starts and ends.
  have hfront : tokens =
      before ++ [Token.ofText (String.ofList key) (position + start.length) key.length] := by
    rw [tokenizeFrom_append hbefore (apart_of_last hstart), ← List.append_nil key,
      tokenizeFrom_key hkey hkey' (by simp), tokenizeFrom_nil] at h
    simpa [Except.map] using h.symm
  have hback : tokenizeFrom (position + start.length + key.length) (more ++ rest) = _ :=
    tokenizeFrom_key hmore hmore' hrest
  have hapart : Apart start (key ++ more ++ rest) := apart_of_last hstart
  have hwhole := tokenizeFrom_append hbefore hapart
  rw [tokenizeFrom_key (by simp [hkey]) hk hrest, hq] at hwhole
  rw [hp, hback, List.append_assoc, ← List.append_assoc key, hwhole, hfront]
  cases tokenizeFrom (position + start.length + key.length + more.length) rest with
  | ok after =>
    refine ⟨fun others ho => ?_, fun error he => by contradiction⟩
    obtain rfl := Except.ok.inj ho
    exact ⟨_, rfl, .mk hkey hmore hk⟩
  | error error => exact ⟨fun others ho => by contradiction, fun error he => he⟩

/-! ## Two patterns -/

/-- What is read, wherever it stands: of tokens their kinds, of an error its cause. -/
def withoutPlaces : Except PatternError (List Token) → Except Fault (List TokenKind)
  | .ok tokens => .ok (tokens.map Token.kind)
  | .error error => .error error.fault

theorem withoutPlaces_map_append (tokens : List Token)
    (outcome : Except PatternError (List Token)) :
    withoutPlaces (outcome.map (tokens ++ ·)) =
      (withoutPlaces outcome).map (tokens.map Token.kind ++ ·) := by
  cases outcome with
  | ok others => exact congrArg Except.ok List.map_append
  | error error => rfl

theorem withoutPlaces_shiftOutcome (offset : Nat) (outcome : Except PatternError (List Token)) :
    withoutPlaces (shiftOutcome offset outcome) = withoutPlaces outcome := by
  cases outcome with
  | ok tokens =>
    refine congrArg Except.ok ?_
    rw [List.map_map]
    rfl
  | error error => rfl

section Patterns

variable {front blanks back : String} {tokens : List Token}

/-- Reading a pattern that stands at an offset. -/
theorem tokenizeFrom_toList (offset : Nat) (pattern : String) :
    tokenizeFrom (0 + offset) pattern.toList = shiftOutcome offset (tokenize pattern) :=
  tokenizeFrom_add offset 0 pattern.toList

theorem tokenize_append_blanks_append (h : tokenize front = .ok tokens)
    (hw : ∀ c ∈ blanks.toList, isBlank c = true)
    (ha : blanks ≠ "" ∨ Apart front.toList back.toList) :
    tokenize (front ++ blanks ++ back) =
      (shiftOutcome (front.length + blanks.length) (tokenize back)).map (tokens ++ ·) := by
  have ha' : Apart front.toList (blanks.toList ++ back.toList) :=
    apart_blanks_append hw (ha.imp_left fun hne => by simpa using hne)
  rw [tokenize, String.toList_append, String.toList_append, List.append_assoc,
    tokenizeFrom_append h ha', tokenizeFrom_blanks hw, Nat.add_assoc, String.length_toList,
    String.length_toList, tokenizeFrom_toList]

/-- Patterns are read piece by piece. Behind a text that is read by itself, and blanks or
    nothing, another text is read as if it stood alone, but for its places. How many blanks
    there are changes no kind of a token and no cause of an error, unless there are none where
    two unquoted keys touch. These are read as one key, and all other tokens stay. -/
theorem tokenize_joined (h : tokenize front = .ok tokens)
    (hw : ∀ c ∈ blanks.toList, isBlank c = true) :
    (blanks ≠ "" ∨ Apart front.toList back.toList →
      (∀ others, tokenize back = .ok others → tokenize (front ++ blanks ++ back) =
        .ok (tokens ++ others.map (Token.shift · (front.length + blanks.length)))) ∧
      (∀ error, tokenize back = .error error → tokenize (front ++ blanks ++ back) =
        .error (error.shift (front.length + blanks.length))) ∧
      ∀ more : String, (∀ c ∈ more.toList, isBlank c = true) →
        more ≠ "" ∨ Apart front.toList back.toList →
        withoutPlaces (tokenize (front ++ more ++ back)) =
          withoutPlaces (tokenize (front ++ blanks ++ back))) ∧
    (¬Apart front.toList back.toList →
      (∀ others, tokenize back = .ok others → ∃ whole, tokenize (front ++ back) = .ok whole ∧
        Merges tokens (others.map (Token.shift · front.length)) whole) ∧
      ∀ error, tokenize back = .error error →
        tokenize (front ++ back) = .error (error.shift front.length)) := by
  refine ⟨fun ha => ?_, fun ht => ?_⟩
  · have hjoin := tokenize_append_blanks_append h hw ha
    refine ⟨fun others ho => ?_, fun error he => ?_, fun more hm hma => ?_⟩
    · rw [hjoin, ho]
      rfl
    · rw [hjoin, he]
      rfl
    · rw [hjoin, tokenize_append_blanks_append h hm hma, withoutPlaces_map_append,
        withoutPlaces_map_append, withoutPlaces_shiftOutcome, withoutPlaces_shiftOutcome]
  · obtain ⟨hok, herror⟩ := tokenizeFrom_touching h ht
    rw [String.length_toList, tokenizeFrom_toList] at hok herror
    have hfrom : tokenize (front ++ back) = tokenizeFrom 0 (front.toList ++ back.toList) := by
      rw [tokenize, String.toList_append]
    rw [hfrom]
    refine ⟨fun others ho => hok _ ?_, fun error he => herror _ ?_⟩
    · rw [ho]
      rfl
    · rw [he]
      rfl

theorem tokenize_joined_touching :
    tokenize ("\x7ba" ++ " " ++ "b\x7d") = .ok [⟨.openBrace, ⟨0, 1⟩⟩, ⟨.text "a", ⟨1, 1⟩⟩,
      ⟨.text "b", ⟨3, 1⟩⟩, ⟨.closeBrace, ⟨4, 1⟩⟩] ∧
    (∃ whole, tokenize ("\x7ba" ++ "b\x7d") = .ok whole ∧
      Merges [⟨.openBrace, ⟨0, 1⟩⟩, ⟨.text "a", ⟨1, 1⟩⟩]
        [⟨.text "b", ⟨2, 1⟩⟩, ⟨.closeBrace, ⟨3, 1⟩⟩] whole) ∧
    tokenize ("\x7ba" ++ " " ++ "!") = .error (Fault.strayCharacter.spanning ⟨3, 1⟩) := by
  have hfront : tokenize "\x7ba" = .ok [⟨.openBrace, ⟨0, 1⟩⟩, ⟨.text "a", ⟨1, 1⟩⟩] := by
    show tokenizeFrom 0 ['\x7b', 'a'] = _
    rw [tokenizeFrom_cons_of_ok rfl rfl, List.drop_zero, tokenizeFrom_cons_of_ok rfl rfl,
      List.drop_nil, tokenizeFrom_nil]
    rfl
  have hback : tokenize "b\x7d" = .ok [⟨.text "b", ⟨0, 1⟩⟩, ⟨.closeBrace, ⟨1, 1⟩⟩] := by
    show tokenizeFrom 0 ['b', '\x7d'] = _
    rw [tokenizeFrom_cons_of_ok rfl rfl]
    show Except.map _ (tokenizeFrom 1 ['\x7d']) = _
    rw [tokenizeFrom_cons_of_ok rfl rfl, List.drop_zero, tokenizeFrom_nil]
    rfl
  have hstray : tokenize "!" = .error (Fault.strayCharacter.spanning ⟨0, 1⟩) := by
    show tokenizeFrom 0 ['!'] = _
    rw [tokenizeFrom_cons_of_error rfl rfl]
  have hblank : ∀ c ∈ " ".toList, isBlank c = true := by
    intro c hc
    obtain rfl := List.mem_singleton.1 hc
    rfl
  have htouch : ¬Apart "\x7ba".toList "b\x7d".toList := by
    intro ha
    exact absurd (ha 'a' rfl rfl 'b' rfl) (by decide)
  obtain ⟨hapart, hmerge⟩ := @tokenize_joined _ " " "b\x7d" _ hfront hblank
  obtain ⟨hapart', -⟩ := @tokenize_joined _ " " "!" _ hfront hblank
  exact ⟨(hapart (.inl (by decide))).1 _ hback, (hmerge htouch).1 _ hback,
    (hapart' (.inl (by decide))).2.1 _ hstray⟩

end Patterns

end FieldMask
