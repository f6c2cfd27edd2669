/-!
# The shortest decimal of a floating-point number

A finite floating-point number stands for an interval of reals: those that
round to it. Of the decimals in that interval, `shortest` chooses one with the
fewest digits, among these the nearest to the number, and of two equally near
the one whose last digit is even.

All comparisons are exact, between fractions of natural numbers.
-/

namespace FieldMask

/-- The decimal `digits · 10 ^ exponent`, which has no sign. -/
structure Decimal where
  digits : Nat
  exponent : Int
  deriving DecidableEq, Repr

/-- The positive binary number `significand · 2 ^ exponent`. At the lower end of
    a binade the next number below is only half as far as the next one above. -/
structure Binary where
  significand : Nat
  exponent : Int
  atBinadeStart : Bool
  deriving DecidableEq, Repr

namespace Binary

/-- One more than the largest fraction field of a float, which has 52 bits. -/
def fractionRange : Nat := 0x10000000000000

/-- One more than the largest exponent field of a float, which has 11 bits. -/
def exponentRange : Nat := 0x800

/-- The binary number of the magnitude of a finite float, zero apart. -/
def ofBits (bits : UInt64) : Binary :=
  let fraction := bits.toNat % fractionRange
  let biased := bits.toNat / fractionRange % exponentRange
  if biased = 0 then ⟨fraction, -1074, false⟩
  else ⟨fractionRange + fraction, (biased : Int) - 1075, fraction = 0 && 1 < biased⟩

/-- A bound from below on the exponent of the leading decimal digit, at most two
    off; a factor of two is 0.30103 decimal digits. -/
def leadingExponentBound (b : Binary) : Int :=
  (b.significand.log2 + b.exponent) * 30103 / 100000 - 1

/-- Whether the ends of the rounding interval belong to it. -/
def endsIncluded (b : Binary) : Bool := b.significand % 2 = 0

end Binary

/-- Three points of the line over one denominator: the ends of a rounding
    interval and the number inside it. -/
structure RoundingInterval where
  below : Nat
  value : Nat
  above : Nat
  denominator : Nat
  closed : Bool
  deriving DecidableEq, Repr

namespace RoundingInterval

/-- The reals that round to a binary number: up to half the distance to the next
    number on either side. -/
def ofBinary (b : Binary) : RoundingInterval :=
  let unit := Nat.pow 2 b.exponent.toNat
  { below := (4 * b.significand - if b.atBinadeStart then 1 else 2) * unit
    value := 4 * b.significand * unit
    above := (4 * b.significand + 2) * unit
    denominator := 4 * Nat.pow 2 (-b.exponent).toNat
    closed := b.endsIncluded }

/-- The interval seen in units of `10 ^ exponent`. -/
def scale (i : RoundingInterval) (exponent : Int) : RoundingInterval :=
  let up := Nat.pow 10 (-exponent).toNat
  { below := i.below * up
    value := i.value * up
    above := i.above * up
    denominator := i.denominator * Nat.pow 10 exponent.toNat
    closed := i.closed }

/-- Whether the integer `n` lies in the interval. -/
def contains (i : RoundingInterval) (n : Nat) : Bool :=
  let x := n * i.denominator
  if i.closed then i.below ≤ x && x ≤ i.above else i.below < x && x < i.above

/-- The integer of the interval that is nearest to the number, one of its two
    neighbours; of two equally near the even one. -/
def nearest? (i : RoundingInterval) : Option Nat :=
  let floor := i.value / i.denominator
  let twice := 2 * (i.value % i.denominator)
  let first :=
    if twice < i.denominator ∨ (twice = i.denominator ∧ floor % 2 = 0) then floor else floor + 1
  let second := if first = floor then floor + 1 else floor
  if i.contains first then some first
  else if i.contains second then some second
  else none

/-- The exponent of the leading decimal digit of the number: searched for upwards
    from `low`, for at most `steps` steps. -/
def leadingExponent (i : RoundingInterval) (low : Int) : (steps : Nat) → Int
  | 0 => low
  | steps + 1 =>
    let next := i.scale (low + 1)
    if next.denominator ≤ next.value then i.leadingExponent (low + 1) steps else low

end RoundingInterval

/-- The first of `steps` grids, each ten times finer than the one before, with a
    point in the interval, and its nearest such point. -/
def firstGridPoint (i : RoundingInterval) (exponent : Int) : (steps : Nat) → Decimal
  | 0 => ⟨(i.scale exponent).value / (i.scale exponent).denominator, exponent⟩
  | steps + 1 =>
    match (i.scale exponent).nearest? with
    | some n => ⟨n, exponent⟩
    | none => firstGridPoint i (exponent - 1) steps

/-- The digits with zeros at the end moved into the exponent. -/
def Decimal.dropZeros (d : Decimal) : Decimal :=
  if h : d.digits ≠ 0 ∧ d.digits % 10 = 0 then
    Decimal.dropZeros ⟨d.digits / 10, d.exponent + 1⟩
  else d
termination_by d.digits
decreasing_by exact Nat.div_lt_self (Nat.pos_of_ne_zero h.1) (by decide)

/-- The shortest decimal that rounds to a positive binary number. Seventeen
    digits always suffice. -/
def Binary.shortest (b : Binary) : Decimal :=
  let i := RoundingInterval.ofBinary b
  (firstGridPoint i (i.leadingExponent b.leadingExponentBound 3) 17).dropZeros

end FieldMask
