import FieldMask.Json.Basic
import FieldMask.Pattern.Error

/-!
# Reporting pattern errors

An error is reported in one line, on request followed by the pattern with the
span in question coloured for a terminal, or as a JSON value.

Results:
* `highlightSpan_eq`: colouring a span that lies in the text inserts the two
  marks around it and changes nothing else.
-/

namespace FieldMask

/-- The escape sequence for bold red on white: `ANSI_WHITE_BG_RED_FG_BOLD` of `error::render`
    (line 9). -/
def colourStart : String := "\x1b[31;47;1m"

/-- The escape sequence that ends colouring: `ANSI_COLOUR_RESET` of `error::render` (line 10). -/
def colourEnd : String := "\x1b[0m"

/-- A text with the characters of a span coloured. What of the span lies beyond the end of the
    text is left out. `highlight_span` of `error::render` (lines 39–53), as long as the end of the
    span fits a word. -/
def highlightSpan (text : String) (span : Span) : String :=
  let chars := text.toList
  String.ofList (chars.take span.position) ++ colourStart ++
    String.ofList ((chars.drop span.position).take span.length) ++ colourEnd ++
    String.ofList (chars.drop span.stop)

theorem highlightSpan_eq (before covered after : List Char) :
    highlightSpan (String.ofList (before ++ covered ++ after)) ⟨before.length, covered.length⟩ =
      String.ofList before ++ colourStart ++ String.ofList covered ++ colourEnd ++
        String.ofList after := by
  simp [highlightSpan, Span.stop, ← List.drop_drop]

namespace Fault

/-- The cause as a JSON value: its name, or an object from its name to what was expected, which is
    the serialized form of `ErrorKind` of `error::types` (lines 24–37). -/
def toJson (fault : Fault) : Json :=
  match fault with
  | unexpectedToken wanted => .object [(fault.category, .string wanted.label)]
  | _ => .string fault.category

end Fault

namespace PatternError

/-- The error in one line: how `ParsingError` of `error::types` (lines 78–84) is displayed. -/
def summary (error : PatternError) : String :=
  "ParsingError: " ++ error.message ++ " (position: " ++ toString error.span.position ++
    ", length: " ++ toString error.span.length ++ ")"

/-- The attached pattern with the span in question coloured: `ParsingError::highlight` of
    `error::render` (lines 30–33). -/
def highlight (error : PatternError) : Option String :=
  error.pattern.map (highlightSpan · error.span)

/-- The error in one line; with colours, the coloured pattern in the line after it, if a pattern
    is attached. `ParsingError::render` of `error::render` (lines 19–26). -/
def render (error : PatternError) (colours : Bool) : String :=
  match error.highlight with
  | some highlighted => if colours then error.summary ++ "\n" ++ highlighted else error.summary
  | none => error.summary

/-- The error as a JSON value: the serialized form of `ParsingError` of `error::types`
    (lines 78–84). -/
def toJson (error : PatternError) : Json :=
  .object [("kind", error.fault.toJson), ("position", .ofNat error.span.position),
    ("length", .ofNat error.span.length), ("message", .string error.message),
    ("pattern", (error.pattern.map Json.string).getD .null)]

theorem render_false (error : PatternError) : error.render false = error.summary := by
  unfold render; split <;> rfl

end PatternError

end FieldMask
