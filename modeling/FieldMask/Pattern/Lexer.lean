import FieldMask.Pattern.Error
import FieldMask.Pattern.Token
import FieldMask.Text.Blank
import FieldMask.Text.Quoted

/-!
# From text to tokens

Blank characters separate tokens. A brace, comma or colon is a token by
itself; a quote starts a quoted key; a run of key characters, as long as it
goes, is an unquoted key. Any other character is an error.

The reader works on the characters that are left and counts the position
along, so positions count characters of the whole pattern.
-/

namespace FieldMask

/-- The characters of an unquoted key: ASCII letters and digits, dollar, underscore, hyphen.
    `is_key_character` of `tokenizer::characters` (lines 12–14). -/
def isKeyCharacter (c : Char) : Bool :=
  c.isAlphanum || c = '$' || c = '_' || c = '-'

/-- A token at the head of a text: its kind, and how many characters it takes
    after the first one. -/
structure Lexeme where
  kind : TokenKind
  more : Nat
  deriving DecidableEq, Repr

namespace Lexeme

/-- The key after an opening quote, the closing quote included: `read_quoted_text` of
    `tokenizer::strings` (lines 15–27). -/
def ofQuoted (rest : List Char) : Except Fault Lexeme :=
  match Quoted.closingQuote? rest with
  | some n => .ok ⟨.text (String.ofList (Quoted.unescape (rest.take n))), n + 1⟩
  | none => .error .unclosedQuote

/-- The longest unquoted key that starts with `c`: `read_unquoted_text` of `tokenizer::characters`
    (lines 34–44). -/
def ofKey (c : Char) (rest : List Char) : Lexeme :=
  let tail := rest.takeWhile isKeyCharacter
  ⟨.text (String.ofList (c :: tail)), tail.length⟩

/-- The token that starts with `c`, which is not blank, in front of `rest`: what the loop of
    `Tokenizer::tokenize` of `tokenizer::core` (lines 32–44) calls, `read_character_token` of
    `tokenizer::characters` (lines 19–31) for all but a quote. -/
def read (c : Char) (rest : List Char) : Except Fault Lexeme :=
  if c = '\"' then ofQuoted rest
  else match TokenKind.structural? c with
    | some kind => .ok ⟨kind, 0⟩
    | none => if isKeyCharacter c then .ok (ofKey c rest) else .error .strayCharacter

end Lexeme

/-- The tokens of the characters that are left from `position` on: the loop of
    `Tokenizer::tokenize` of `tokenizer::core` (lines 32–44) at index `position`. -/
def tokenizeFrom (position : Nat) : List Char → Except PatternError (List Token)
  | [] => .ok []
  | c :: rest =>
    if isBlank c then tokenizeFrom (position + 1) rest
    else match Lexeme.read c rest with
      | .error fault => .error (fault.spanning ⟨position, 1⟩)
      | .ok ⟨kind, more⟩ =>
        (tokenizeFrom (position + 1 + more) (rest.drop more)).map
          (⟨kind, ⟨position, 1 + more⟩⟩ :: ·)
termination_by chars => chars.length

/-- The tokens of a pattern, in order. The first character that starts no token, or quote that is
    never closed, is the error. `tokenize` of `tokenizer::core` (lines 53–55). -/
def tokenize (pattern : String) : Except PatternError (List Token) :=
  tokenizeFrom 0 pattern.toList

@[simp] theorem tokenizeFrom_nil (position : Nat) : tokenizeFrom position [] = .ok [] := by
  rw [tokenizeFrom]

theorem tokenizeFrom_cons_of_isBlank {c : Char} (h : isBlank c = true) (position : Nat)
    (rest : List Char) : tokenizeFrom position (c :: rest) = tokenizeFrom (position + 1) rest := by
  rw [tokenizeFrom, if_pos h]

theorem tokenizeFrom_cons_of_error {c : Char} {rest : List Char} {fault : Fault}
    (h : isBlank c = false) (hread : Lexeme.read c rest = .error fault) (position : Nat) :
    tokenizeFrom position (c :: rest) = .error (fault.spanning ⟨position, 1⟩) := by
  rw [tokenizeFrom, if_neg (by simp [h]), hread]

theorem tokenizeFrom_cons_of_ok {c : Char} {rest : List Char} {kind : TokenKind} {more : Nat}
    (h : isBlank c = false) (hread : Lexeme.read c rest = .ok ⟨kind, more⟩) (position : Nat) :
    tokenizeFrom position (c :: rest) =
      (tokenizeFrom (position + 1 + more) (rest.drop more)).map
        (⟨kind, ⟨position, 1 + more⟩⟩ :: ·) := by
  rw [tokenizeFrom, if_neg (by simp [h]), hread]

end FieldMask
