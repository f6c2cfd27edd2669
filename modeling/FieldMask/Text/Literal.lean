import FieldMask.Text.Printable

/-!
# Text quoted for a message

A text inside a message stands between double quotes, with what would not show
or would change how its neighbours show written as an escape.
-/

namespace FieldMask.Literal

/-- A character by its code point in hexadecimal. -/
def codePointEscape (c : Char) : List Char :=
  ['\\', 'u', '\x7b'] ++ Nat.toDigits 16 c.toNat ++ ['\x7d']

/-- A character as it is written between quotes. -/
def escapeChar (c : Char) : List Char :=
  if c = '\x00' then ['\\', '0']
  else if c = '\t' then ['\\', 't']
  else if c = '\r' then ['\\', 'r']
  else if c = '\n' then ['\\', 'n']
  else if c = '\"' || c = '\\' then ['\\', c]
  else if isPrintable c && !isExtendingMark c then [c]
  else codePointEscape c

/-- A text with its quotes, as it stands in a message about a value of the wrong type. -/
def quote (text : String) : String :=
  String.ofList ('\"' :: text.toList.flatMap escapeChar ++ ['\"'])

end FieldMask.Literal
