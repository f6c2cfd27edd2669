import FieldMask.Text.Span

/-!
# Errors in a pattern

A pattern error is a cause together with the span of the pattern it concerns.
Reading tokens and building selectors report the cause and the span; the
pattern itself is attached once it is known.
-/

namespace FieldMask

/-- What was wanted where another token stood: `Expectation` of `error::types` (lines 13–20). -/
inductive Expectation where
  /-- A key must start here. -/
  | key
  /-- A key was read: a comma or a colon must follow. -/
  | separator
  /-- The pattern must start with an opening brace. -/
  | openBrace
  deriving DecidableEq, Repr, Inhabited

/-- Why a pattern is refused: `ErrorKind` of `error::types` (lines 24–37). -/
inductive Fault where
  /-- A character that starts no token. -/
  | strayCharacter
  /-- A quoted key without its closing quote. -/
  | unclosedQuote
  /-- A token that is not the one wanted. -/
  | unexpectedToken (wanted : Expectation)
  /-- A colon without an object after it. -/
  | objectMissing
  /-- A nested object without its closing brace. -/
  | unclosedObject
  /-- Two expressions without a comma between them. -/
  | commaMissing
  /-- A key that a sibling before it has. -/
  | repeatedKey
  /-- A pattern without tokens. -/
  | emptyPattern
  /-- A root object without its closing brace. -/
  | unclosedRoot
  /-- Tokens after the root object. -/
  | trailingText
  /-- An object nested beyond the limit. -/
  | nestedTooDeep
  deriving DecidableEq, Repr, Inhabited

/-- A cause, the span it concerns, and the pattern once it is attached: `ParsingError` of
    `error::types` (lines 78–84). Its message is that of the cause and not kept apart. -/
structure PatternError where
  fault : Fault
  span : Span
  pattern : Option String := none
  deriving DecidableEq, Repr, Inhabited

namespace Expectation

/-- The name under which an expectation is reported. -/
def label : Expectation → String
  | key => "Key"
  | separator => "CommaOrColon"
  | openBrace => "OpenBrace"

end Expectation

namespace Fault

/-- The name under which a cause is reported, without what was expected. -/
def category : Fault → String
  | strayCharacter => "UnexpectedCharacter"
  | unclosedQuote => "MissingClosingQuote"
  | unexpectedToken _ => "UnexpectedToken"
  | objectMissing => "ExpectedObjectAfterColon"
  | unclosedObject => "MissingClosingBrace"
  | commaMissing => "ExpectedCommaBetweenExpressions"
  | repeatedKey => "DuplicateKeySpecified"
  | emptyPattern => "NoInputProvided"
  | unclosedRoot => "CannotFindClosingBrace"
  | trailingText => "UnexpectedTextAfterEndOfObject"
  | nestedTooDeep => "NestingTooDeep"

/-- The name under which a cause is reported, with what was expected in parentheses. -/
def label (fault : Fault) : String :=
  match fault with
  | unexpectedToken wanted => fault.category ++ "(" ++ wanted.label ++ ")"
  | _ => fault.category

/-- The cause in words: `ErrorKind::message` of `error::types` (lines 42–62). -/
def message : Fault → String
  | strayCharacter => "Unexpected character"
  | unclosedQuote => "Missing closing quote"
  | unexpectedToken .key => "Unexpected token (was expecting a key)"
  | unexpectedToken .separator => "Unexpected token (was expecting a comma or a colon)"
  | unexpectedToken .openBrace => "Unexpected token (expected open brace)"
  | objectMissing => "Expected object after colon"
  | unclosedObject => "Missing closing brace"
  | commaMissing => "Expected comma between expressions"
  | repeatedKey => "Duplicate key specified"
  | emptyPattern => "No input provided"
  | unclosedRoot => "Cannot find closing brace"
  | trailingText => "Unexpected text after end of object"
  | nestedTooDeep => "Maximum nesting depth exceeded"

/-- The cause as an error at a span, with no pattern attached: `ParsingError::at` of
    `error::types` (lines 104–106). -/
def spanning (fault : Fault) (span : Span) : PatternError := ⟨fault, span, none⟩

end Fault

namespace PatternError

/-- Attaches the pattern; one that is attached already stays. `ParsingError::with_pattern` of
    `error::types` (lines 110–115). -/
def withPattern (error : PatternError) (pattern : String) : PatternError :=
  ⟨error.fault, error.span, error.pattern.or (some pattern)⟩

/-- The cause in words: `ParsingError::message` of `error::types` (lines 143–145). -/
def message (error : PatternError) : String := error.fault.message

/-- The error moved right by `offset` characters. -/
def shift (error : PatternError) (offset : Nat) : PatternError :=
  ⟨error.fault, error.span.shift offset, error.pattern⟩

theorem withPattern_withPattern (error : PatternError) (p q : String) :
    (error.withPattern p).withPattern q = error.withPattern p := by
  cases h : error.pattern <;> simp [withPattern, h]

end PatternError

end FieldMask
