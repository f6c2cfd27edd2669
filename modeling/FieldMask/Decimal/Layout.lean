import FieldMask.Decimal.Shortest

/-!
# How a decimal number is written

Numbers of ordinary size are written with a decimal point in its place, always
with at least one digit on either side of it. Beyond that an exponent form is
used: one digit stands before the point, the point is left out when no digit
follows it, and the exponent has its sign in any case.
-/

namespace FieldMask

/-- Which decimals are written with the point in its place: those whose leading
    digit has an exponent from `lowest` to `highest`. -/
structure Layout where
  lowest : Int
  highest : Int
  deriving DecidableEq, Repr

namespace Layout

/-- The layout of numbers in JSON text. -/
def json : Layout := ⟨-5, 15⟩

/-- Whether a decimal whose leading digit has the exponent `e` has its point in place. -/
def inPlace (layout : Layout) (e : Int) : Bool := layout.lowest ≤ e && e ≤ layout.highest

end Layout

namespace Decimal

/-- The digits of the decimal, most significant first. -/
def digitText (d : Decimal) : List Char := Nat.toDigits 10 d.digits

/-- The exponent of the leading digit. -/
def leading (d : Decimal) : Int := d.exponent + d.digitText.length - 1

/-- The decimal with its point in place. -/
def positional (d : Decimal) : List Char :=
  let digits := d.digitText
  let point := d.exponent + digits.length
  if 0 ≤ d.exponent then
    digits ++ List.replicate d.exponent.toNat '0' ++ ['.', '0']
  else if 0 < point then
    digits.take point.toNat ++ '.' :: digits.drop point.toNat
  else
    '0' :: '.' :: List.replicate (-point).toNat '0' ++ digits

/-- An exponent with its sign. -/
def exponentText (e : Int) : List Char :=
  (if e < 0 then '-' else '+') :: Nat.toDigits 10 e.natAbs

/-- The decimal with one digit before the point and an exponent. -/
def scientific (d : Decimal) : List Char :=
  let mantissa := match d.digitText with
    | [] => []
    | [digit] => [digit]
    | digit :: more => digit :: '.' :: more
  mantissa ++ 'e' :: exponentText d.leading

/-- The decimal as a layout writes it. -/
def render (layout : Layout) (d : Decimal) : List Char :=
  if layout.inPlace d.leading then d.positional else d.scientific

end Decimal

/-- The sign bit of a float. -/
def signBit : Nat := 0x8000000000000000

/-- A finite float in its shortest form. A zero has a sign too. -/
def Layout.renderFloat (layout : Layout) (x : Float) : String :=
  let bits := x.toBits
  let sign := if signBit ≤ bits.toNat then ['-'] else []
  let magnitude :=
    if bits.toNat % signBit = 0 then ['0', '.', '0'] else (Binary.ofBits bits).shortest.render layout
  String.ofList (sign ++ magnitude)

end FieldMask
