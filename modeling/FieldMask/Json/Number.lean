import FieldMask.Decimal.Layout

/-!
# Numbers of a JSON value

A number is an integer or a finite float. Floats that are not finite have no
number.
-/

namespace FieldMask

/-- A number of a JSON value. -/
inductive Number where
  | integer (n : Int)
  | float (x : Float) (finite : x.isFinite = true)
  deriving DecidableEq

namespace Number

/-- The number of a finite float. -/
def ofFloat? (x : Float) : Option Number :=
  if h : x.isFinite = true then some (float x h) else none

/-- The number as JSON text: integers in decimal, floats in their shortest form. -/
def text : Number → String
  | integer n => toString n
  | float x _ => Layout.json.renderFloat x

end Number

end FieldMask
