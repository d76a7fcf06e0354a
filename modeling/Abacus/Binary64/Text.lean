import Abacus.Binary64.Decimal
import Abacus.Decimal.Layout

/-!
# The text of a binary64 number

Two texts of a number: the literal, which has the fewest digits that read back and always a point
or an exponent, and the significant text, rounded from the exact value to a number of digits.

## Main definitions

* `Binary64.literal` — the shortest text that reads back.
* `Binary64.significant` — the text rounded to a number of significant digits.
* `Binary64.display?` — the text shown to people.

## Design notes

A displayed whole number below `10 ^ 16` has no point, negative zero keeps its sign, and a number
of digits is between 0 and `2 ^ 31 - 1`, where 0 counts as 1.
-/

namespace Abacus.Binary64

/-- The sign that is written: only of negative numbers, negative zero among them. -/
def writeSign (negative : Bool) : List Char := if negative then ['-'] else []

/-- The layout of literals: positional below `10 ^ 16`, whole numbers marked by `.0`. The mark tells
a literal from that of an integer. -/
def literalLayout : Decimal.Layout where
  positionalBelow := 16
  wholeMark := ['.', '0']

/-- The layout of texts of `count` significant digits: positional while the digits reach the
point. -/
def significantLayout (count : Nat) : Decimal.Layout where
  positionalBelow := count
  wholeMark := []

/-- The text of a number, given the text of finite magnitudes in quanta. So signs and the numbers
that are not finite are the same in every form of text. -/
def writeWith (magnitude : Nat → List Char) : Binary64 → String
  | nan => "nan"
  | infinite negative => String.ofList (writeSign negative ++ ['i', 'n', 'f'])
  | finite negative quanta _ => String.ofList (writeSign negative ++ magnitude quanta)

/-- The shortest text that reads back as the number, in the layout of literals. The infinities and
NaN are words, and they read back as well. -/
def literal (x : Binary64) : String :=
  x.writeWith fun quanta => (shortestDecimal quanta).write literalLayout

/-- The text of the number rounded half to even to `count` significant digits. Where the exact value
has fewer, no zeros are added. -/
def significant (count : Nat) (x : Binary64) : String :=
  x.writeWith fun quanta =>
    ((exactDecimal quanta).roundTo count).write (significantLayout count)

/-- The largest number of significant digits that can be asked for. Beyond it there is no text, even
of a number that has fewer digits. -/
def maxDigits : Int := 2147483647

/-- A whole number is displayed as an integer below this bound. The literals of larger ones have an
exponent. -/
def displayedWhole : Nat := Nat.pow 10 16

/-- The text of a number for people: with `digits` given, that many significant digits; else an
integer where the number is a moderate one, and the literal otherwise. Negative zero is `-0` in
any case; for all other numbers a number of digits out of range has no text. -/
def display? (digits : Option Int) (x : Binary64) : Option String :=
  if x.isZero && x.isNegative then some "-0"
  else
    match digits with
    | some count =>
      if 0 ≤ count ∧ count ≤ maxDigits then some (x.significant (max 1 count.toNat)) else none
    | none =>
      match x.toInt? with
      | some n =>
        if n.natAbs < displayedWhole then
          some (String.ofList (writeSign (n < 0) ++ Decimal.digits n.natAbs))
        else some x.literal
      | none => some x.literal

end Abacus.Binary64
