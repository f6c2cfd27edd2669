import FieldMask.Proofs.Text.Quoted

/-!
# The pieces of a quoted content

From left to right, characters fall into escape pairs and characters that stand
for themselves. Both the search for the closing quote and the reading pair by
pair go over these pieces: the closing quote is the first one that is a piece by
itself, and the pieces before it are those of the content that it closes.

Results:
* `flatMap_spelling_pieces`, `decode_eq_map_pieces`: the pieces make up the text, and
  what they stand for makes up the text that it stands for.
* `closingQuote?_eq_some_iff_pieces`, `closingQuote?_eq_none_iff_pieces`: the closing
  quote by the pieces.
* `unescape_eq_decode`: the two passes resolve the pairs that the search skips.
-/

namespace FieldMask.Quoted

/-- A piece of a quoted content. -/
inductive Piece where
  /-- A backslash and the character it escapes. -/
  | pair (c : Char)
  /-- A character that stands for itself. -/
  | single (c : Char)
  deriving DecidableEq, Repr

namespace Piece

/-- The characters that a piece is made of. -/
def spelling : Piece → List Char
  | pair c => ['\\', c]
  | single c => [c]

/-- The character that a piece stands for. -/
def char : Piece → Char
  | pair c => c
  | single c => c

end Piece

/-- The pieces of a text, each pair taken as early as it can be. -/
def pieces : List Char → List Piece
  | [] => []
  | [a] => [.single a]
  | a :: b :: rest =>
    if a = '\\' && isEscapable b then .pair b :: pieces rest else .single a :: pieces (b :: rest)

/-! ## One piece -/

section Step

variable {a b : Char} {rest : List Char}

theorem pieces_pair (hb : isEscapable b = true) :
    pieces ('\\' :: b :: rest) = .pair b :: pieces rest := by
  simp [pieces, hb]

/-- A character is a piece by itself unless it forms a pair with the next one. -/
theorem pieces_single (h : ∀ d ∈ rest.head?, ¬(a = '\\' ∧ isEscapable d = true)) :
    pieces (a :: rest) = .single a :: pieces rest := by
  cases rest with
  | nil => rfl
  | cons b rest =>
    rw [pieces, if_neg]
    simpa using h b rfl

theorem closingQuote?_pair (hb : isEscapable b = true) :
    closingQuote? ('\\' :: b :: rest) = (closingQuote? rest).map (· + 2) := by
  simp [closingQuote?, hb]

theorem closingQuote?_single (hq : a ≠ '\"')
    (h : ∀ d ∈ rest.head?, ¬(a = '\\' ∧ isEscapable d = true)) :
    closingQuote? (a :: rest) = (closingQuote? rest).map (· + 1) := by
  cases rest with
  | nil => simp [closingQuote?, hq]
  | cons b rest =>
    rw [closingQuote?, if_neg hq, if_neg]
    simpa using h b rfl

theorem closingQuote?_quote : closingQuote? ('\"' :: rest) = some 0 := by
  cases rest <;> simp [closingQuote?]

end Step

/-- To prove something of every text, prove it of a pair and of a single character in front
    of a text of which it holds. -/
@[elab_as_elim]
theorem pieces_induct {motive : List Char → Prop} (nil : motive [])
    (pair : ∀ b rest, isEscapable b = true → motive rest → motive ('\\' :: b :: rest))
    (single : ∀ a rest, (∀ d ∈ rest.head?, ¬(a = '\\' ∧ isEscapable d = true)) → motive rest →
      motive (a :: rest)) (text : List Char) : motive text := by
  fun_induction pieces text with
  | case1 => exact nil
  | case2 a => exact single a [] (by simp) nil
  | case3 a b rest h ih =>
    simp only [Bool.and_eq_true, decide_eq_true_eq] at h
    rw [h.1]
    exact pair b rest h.2 ih
  | case4 a b rest h ih => exact single a (b :: rest) (by simpa using h) ih

/-! ## The whole text -/

/-- The pieces make up the text. -/
theorem flatMap_spelling_pieces (text : List Char) :
    (pieces text).flatMap Piece.spelling = text := by
  induction text using pieces_induct with
  | nil => rfl
  | pair b rest hb ih =>
    rw [pieces_pair hb, List.flatMap_cons, ih]
    rfl
  | single a rest h ih =>
    rw [pieces_single h, List.flatMap_cons, ih]
    rfl

/-- Reading pair by pair takes each piece for the character that it stands for. -/
theorem decode_eq_map_pieces (text : List Char) : decode text = (pieces text).map Piece.char := by
  fun_induction decode text with
  | case1 => rfl
  | case2 => rfl
  | case3 a b rest h ih =>
    rw [pieces, if_pos h, List.map_cons, ih]
    rfl
  | case4 a b rest h ih =>
    rw [pieces, if_neg h, List.map_cons, ih]
    rfl

/-! ## The closing quote -/

/-- Without a quote that is a piece by itself the text is unclosed. -/
theorem closingQuote?_of_not_mem_pieces {text : List Char} (h : .single '\"' ∉ pieces text) :
    closingQuote? text = none := by
  induction text using pieces_induct with
  | nil => rfl
  | pair b rest hb ih =>
    rw [pieces_pair hb] at h
    rw [closingQuote?_pair hb, ih (List.not_mem_of_not_mem_cons h)]
    rfl
  | single a rest hs ih =>
    rw [pieces_single hs] at h
    obtain ⟨ha, hrest⟩ := List.ne_and_not_mem_of_not_mem_cons h
    rw [closingQuote?_single (fun hq => ha (by rw [hq])) hs, ih hrest]
    rfl

/-- The first quote that is a piece by itself closes the text. -/
theorem closingQuote?_of_pieces {text : List Char} {before after : List Piece}
    (h : pieces text = before ++ .single '\"' :: after) (hn : .single '\"' ∉ before) :
    closingQuote? text = some (before.flatMap Piece.spelling).length := by
  induction text using pieces_induct generalizing before with
  | nil => simp [pieces] at h
  | pair b rest hb ih =>
    rw [pieces_pair hb] at h
    cases before with
    | nil => simp at h
    | cons piece before =>
      obtain ⟨rfl, hrest⟩ := List.cons.inj h
      rw [closingQuote?_pair hb, ih hrest (List.not_mem_of_not_mem_cons hn)]
      simp [Piece.spelling]
  | single a rest hs ih =>
    rw [pieces_single hs] at h
    cases before with
    | nil =>
      obtain ⟨ha, -⟩ := List.cons.inj h
      rw [Piece.single.inj ha, closingQuote?_quote]
      rfl
    | cons piece before =>
      obtain ⟨rfl, hrest⟩ := List.cons.inj h
      obtain ⟨ha, hbefore⟩ := List.ne_and_not_mem_of_not_mem_cons hn
      rw [closingQuote?_single (fun hq => ha (by rw [hq])) hs, ih hrest hbefore]
      simp [Piece.spelling]

/-- Cut at a quote that is a piece by itself, a text keeps the pieces before it. A backslash
    at the end of them would have formed a pair with the quote. -/
theorem pieces_flatMap_spelling {text : List Char} {before after : List Piece}
    (h : pieces text = before ++ .single '\"' :: after) :
    pieces (before.flatMap Piece.spelling) = before := by
  induction text using pieces_induct generalizing before with
  | nil => simp [pieces] at h
  | pair b rest hb ih =>
    rw [pieces_pair hb] at h
    cases before with
    | nil => rfl
    | cons piece before =>
      obtain ⟨rfl, hrest⟩ := List.cons.inj h
      have hcut : ((Piece.pair b :: before).flatMap Piece.spelling) =
          '\\' :: b :: before.flatMap Piece.spelling := rfl
      rw [hcut, pieces_pair hb, ih hrest]
  | single a rest hs ih =>
    rw [pieces_single hs] at h
    cases before with
    | nil => rfl
    | cons piece before =>
      rw [List.cons_append] at h
      obtain ⟨rfl, hrest⟩ := List.cons.inj h
      have hcut : ((Piece.single a :: before).flatMap Piece.spelling) =
          a :: before.flatMap Piece.spelling := rfl
      have hspell := flatMap_spelling_pieces rest
      rw [hrest, List.flatMap_append] at hspell
      rw [hcut, pieces_single, ih hrest]
      intro d hd
      refine hs d ?_
      rw [← hspell, List.head?_append, hd]
      rfl

/-- The closing quote is the first quote that is a piece by itself, and the pieces before it
    are those of the content. -/
theorem closingQuote?_eq_some_iff_pieces {text : List Char} {n : Nat} :
    closingQuote? text = some n ↔ ∃ after,
      pieces text = pieces (text.take n) ++ .single '\"' :: after ∧
        .single '\"' ∉ pieces (text.take n) := by
  constructor
  · intro h
    have hmem : .single '\"' ∈ pieces text := by
      refine Decidable.byContradiction fun hn => ?_
      rw [closingQuote?_of_not_mem_pieces hn] at h
      contradiction
    obtain ⟨before, after, hpieces, hn⟩ := List.eq_append_cons_of_mem hmem
    rw [closingQuote?_of_pieces hpieces hn] at h
    obtain rfl := Option.some.inj h
    have htake : text.take (before.flatMap Piece.spelling).length =
        before.flatMap Piece.spelling := by
      have hspell := flatMap_spelling_pieces text
      rw [hpieces, List.flatMap_append] at hspell
      rw [← hspell, List.take_left]
    rw [htake, pieces_flatMap_spelling hpieces]
    exact ⟨after, hpieces, hn⟩
  · rintro ⟨after, hpieces, hn⟩
    rw [closingQuote?_of_pieces hpieces hn, flatMap_spelling_pieces]
    -- Were the text shorter than `n`, all of its pieces would stand before the quote.
    have hle : n ≤ text.length := by
      refine Nat.le_of_not_lt fun hlt => ?_
      rw [List.take_of_length_le (Nat.le_of_lt hlt)] at hpieces
      have := congrArg List.length hpieces
      simp at this
    rw [List.length_take_of_le hle]

theorem closingQuote?_eq_none_iff_pieces {text : List Char} :
    closingQuote? text = none ↔ .single '\"' ∉ pieces text := by
  refine ⟨fun h hmem => ?_, closingQuote?_of_not_mem_pieces⟩
  obtain ⟨before, after, hpieces, hn⟩ := List.eq_append_cons_of_mem hmem
  rw [closingQuote?_of_pieces hpieces hn] at h
  contradiction

/-- Resolving escaped quotes first and escaped backslashes after that gives what reading
    pair by pair gives. Both resolve the pieces that are pairs, from left to right, and these
    are the pairs that the search for the closing quote skips: it stops at the first quote that
    is a piece by itself, and what stands before it has the pieces that were skipped. -/
theorem unescape_eq_decode (raw : List Char) :
    unescape raw = decode raw ∧ decode raw = (pieces raw).map Piece.char ∧
      (pieces raw).flatMap Piece.spelling = raw ∧
      (∀ n, closingQuote? raw = some n ↔ ∃ after,
        pieces raw = pieces (raw.take n) ++ .single '\"' :: after ∧
          .single '\"' ∉ pieces (raw.take n)) ∧
      (closingQuote? raw = none ↔ .single '\"' ∉ pieces raw) :=
  ⟨collapse_collapse raw, decode_eq_map_pieces raw, flatMap_spelling_pieces raw,
    fun _ => closingQuote?_eq_some_iff_pieces, closingQuote?_eq_none_iff_pieces⟩

end FieldMask.Quoted
