import FieldMask.Text.CharClass

/-!
# Blank characters

The characters that separate tokens without being part of one: exactly those
with the Unicode property White_Space.
-/

namespace FieldMask

/-- The code points with the property White_Space. -/
def whiteSpace : CharClass :=
  [(0x09, 0x0D), (0x20, 0x20), (0x85, 0x85), (0xA0, 0xA0), (0x1680, 0x1680), (0x2000, 0x200A),
    (0x2028, 0x2029), (0x202F, 0x202F), (0x205F, 0x205F), (0x3000, 0x3000)]

/-- Whether `c` only separates tokens: the first case in the loop of `Tokenizer::tokenize` of
    `tokenizer::core` (lines 32–44). -/
def isBlank (c : Char) : Bool := whiteSpace.contains c

theorem rising_whiteSpace : whiteSpace.rising = true := by decide

end FieldMask
