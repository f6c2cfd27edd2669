import FieldMask.Text.Span

/-!
# Tokens of a pattern

A pattern is made of braces, commas, colons and keys. Each token remembers the
span of the pattern it was read from.
-/

namespace FieldMask

/-- What a token is; a key carries its text with escapes resolved. `TokenKind` of `tokens`
    (lines 37–48). -/
inductive TokenKind where
  | openBrace
  | closeBrace
  | comma
  | colon
  | text (key : String)
  deriving DecidableEq, Repr, Inhabited

/-- A token and the span it was read from: `Token` of `tokens` (lines 52–55). -/
structure Token where
  kind : TokenKind
  span : Span
  deriving DecidableEq, Repr, Inhabited

namespace TokenKind

/-- The name of the kind: a structural token is named by its character. This is
    `Token::as_debug_str` of `tokens` (lines 112–120). -/
def label : TokenKind → String
  | openBrace => "\x7b"
  | closeBrace => "\x7d"
  | comma => ","
  | colon => ":"
  | text _ => "text"

/-- The key text of a text token: `Token::as_text` of `tokens` (lines 97–102). -/
def text? : TokenKind → Option String
  | text key => some key
  | _ => none

/-- The structural token that a character stands for, as in `read_character_token` of
    `tokenizer::characters` (lines 19–31). -/
def structural? : Char → Option TokenKind
  | '\x7b' => some openBrace
  | '\x7d' => some closeBrace
  | ',' => some comma
  | ':' => some colon
  | _ => none

end TokenKind

namespace Token

/-- A key read from `length` characters at `position`: `Token::text` of `tokens` (lines 90–92). -/
def ofText (key : String) (position length : Nat) : Token :=
  ⟨.text key, ⟨position, length⟩⟩

/-- Whether the token is of the given kind, wherever it stands: `Token::is` of `tokens`
    (lines 106–108). -/
def isKind (token : Token) (kind : TokenKind) : Bool := token.kind = kind

/-- The token moved right by `offset` characters. -/
def shift (token : Token) (offset : Nat) : Token :=
  ⟨token.kind, token.span.shift offset⟩

end Token

end FieldMask
