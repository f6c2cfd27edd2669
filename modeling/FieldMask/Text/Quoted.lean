/-!
# Quoted text

Text between double quotes. Inside, a backslash before a quote or before
another backslash forms an escape pair with it; any other backslash stands for
itself. The text ends at the first quote that belongs to no pair.

Results:
* `closingQuote?_escape`: the written form of any text runs up to the quote
  that follows it.
* `decode_escape`: reading the written form pair by pair gives the text back.
-/

namespace FieldMask.Quoted

/-- The characters that form an escape pair with a backslash before them. -/
def isEscapable (c : Char) : Bool := c = '\"' || c = '\\'

/-! ## Reading -/

/-- How many characters stand before the quote that closes the text: the loop of
    `find_closing_quote` of `tokenizer::strings` (lines 29–41), on what follows the opening
    quote. -/
def closingQuote? : List Char → Option Nat
  | [] => none
  | [c] => if c = '\"' then some 0 else none
  | c :: d :: rest =>
    if c = '\"' then some 0
    else if c = '\\' && isEscapable d then (closingQuote? rest).map (· + 2)
    else (closingQuote? (d :: rest)).map (· + 1)

/-- Every pair of a backslash and `c`, from left to right, replaced by `c`: one of the two
    replacements in `unescape` of `tokenizer::strings` (lines 44–46). -/
def collapse (c : Char) : List Char → List Char
  | [] => []
  | [a] => [a]
  | a :: b :: rest =>
    if a = '\\' && b = c then c :: collapse c rest else a :: collapse c (b :: rest)

/-- The text that a quoted content stands for: escaped quotes are resolved in a first pass over
    the content and escaped backslashes in a second one, which is `unescape` of
    `tokenizer::strings` (lines 44–46). -/
def unescape (content : List Char) : List Char :=
  collapse '\\' (collapse '\"' content)

/-- The text that a quoted content stands for, read pair by pair. -/
def decode : List Char → List Char
  | [] => []
  | [a] => [a]
  | a :: b :: rest =>
    if a = '\\' && isEscapable b then b :: decode rest else a :: decode (b :: rest)

/-! ## Writing -/

/-- A character as it is written between quotes. -/
def escapeChar (c : Char) : List Char :=
  if isEscapable c then ['\\', c] else [c]

/-- A text as it is written between quotes. -/
def escape (text : List Char) : List Char := text.flatMap escapeChar

/-- A text with its quotes. -/
def quote (text : List Char) : List Char := '\"' :: escape text ++ ['\"']

/-! ## Writing and reading back -/

@[simp] theorem escape_nil : escape [] = [] := rfl

@[simp] theorem escape_cons (c : Char) (text : List Char) :
    escape (c :: text) = escapeChar c ++ escape text := rfl

theorem closingQuote?_cons_of_not_escapable {c : Char} (h : isEscapable c = false)
    (rest : List Char) : closingQuote? (c :: rest) = (closingQuote? rest).map (· + 1) := by
  have hq : c ≠ '\"' := by rintro rfl; simp [isEscapable] at h
  have hb : c ≠ '\\' := by rintro rfl; simp [isEscapable] at h
  cases rest <;> simp [closingQuote?, hq, hb]

theorem decode_cons_of_not_escapable {c : Char} (h : isEscapable c = false) (rest : List Char) :
    decode (c :: rest) = c :: decode rest := by
  have hb : c ≠ '\\' := by rintro rfl; simp [isEscapable] at h
  cases rest <;> simp [decode, hb]

theorem closingQuote?_escape (text rest : List Char) :
    closingQuote? (escape text ++ '\"' :: rest) = some (escape text).length := by
  induction text with
  | nil => cases rest <;> simp [closingQuote?]
  | cons c text ih =>
    cases h : isEscapable c with
    | true => simp [escapeChar, h, closingQuote?, ih]
    | false => simp [escapeChar, h, closingQuote?_cons_of_not_escapable h, ih]

theorem decode_escape (text : List Char) : decode (escape text) = text := by
  induction text with
  | nil => rfl
  | cons c text ih =>
    cases h : isEscapable c with
    | true => simp [escapeChar, h, decode, ih]
    | false => simp [escapeChar, h, decode_cons_of_not_escapable h, ih]

end FieldMask.Quoted
