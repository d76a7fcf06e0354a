import Abacus.Decimal.Basic

/-!
# Positional and exponent notation

How a decimal is written: positionally while its leading digit counts a moderate power of ten, and
with an exponent otherwise. Trailing zeros are never written.

## Main definitions

* `Decimal.Layout` — the bound of positional notation and the mark of whole numbers.
* `Decimal.write` — the text of a decimal in a layout.
-/

namespace Abacus.Decimal

/-- The choices of a layout. All else about notation is the same for literals and for rounded
numbers. -/
structure Layout where
  /-- Leading exponents from -4 up to this one, exclusive, are written positionally. -/
  positionalBelow : Int
  /-- Written after a positional whole number. -/
  wholeMark : List Char
  deriving Repr

/-- The digits of a significand without trailing zeros; the digits of zero are `0`. -/
def significantDigits (n : Nat) : List Char :=
  if n = 0 then ['0'] else ((digits n).reverse.dropWhile (· == '0')).reverse

/-- The digits with a point after the first `whole` of them, zeros filling the whole part. A number
below one has a zero before its point, and a whole number has a mark instead of places. -/
def writePositional (wholeMark : List Char) (ds : List Char) (leading : Int) : List Char :=
  if leading < 0 then
    '0' :: '.' :: List.replicate (-leading - 1).toNat '0' ++ ds
  else
    let whole := leading.toNat + 1
    if ds.length ≤ whole then ds ++ List.replicate (whole - ds.length) '0' ++ wholeMark
    else ds.take whole ++ '.' :: ds.drop whole

/-- An exponent: its sign and at least two digits. -/
def writeExponent (e : Int) : List Char :=
  let ds := digits e.natAbs
  (if e < 0 then '-' else '+') :: List.replicate (2 - ds.length) '0' ++ ds

/-- One digit, the others after a point, and the exponent. -/
def writeScientific (ds : List Char) (leading : Int) : List Char :=
  let mantissa := match ds with
    | [] => []
    | [d] => [d]
    | d :: rest => d :: '.' :: rest
  mantissa ++ 'e' :: writeExponent leading

/-- The text of a decimal. The leading exponent decides between the two notations, whatever the
digits are, and that of zero counts as 0. Decimals that are the same number have the same text. -/
def write (layout : Layout) (d : Decimal) : List Char :=
  let ds := significantDigits d.significand
  let leading := if d.significand = 0 then 0 else d.leadingExponent
  if -4 ≤ leading ∧ leading < layout.positionalBelow then
    writePositional layout.wholeMark ds leading
  else writeScientific ds leading

end Abacus.Decimal
