import Abacus.Binary64.Decimal

/-!
# Plain numerals

The numerals of expressions: ASCII digits with at most one point among them and at least one digit.
A plain numeral has no sign and no exponent.

## Main definitions

* `Numeral.plain?` — the decimal that a plain numeral denotes.
* `Numeral.value?` — the finite number nearest to it.
-/

namespace Abacus.Numeral

/-- The decimal denoted by digits, or by digits with one point before, among or after them. A point
alone denotes nothing. There is no sign and no exponent: in an expression these are other tokens. -/
def plain? (cs : List Char) : Option Decimal :=
  let whole := cs.takeWhile Char.isDigit
  match cs.dropWhile Char.isDigit with
  | [] => if whole.isEmpty then none else some ⟨Decimal.ofDigits whole, 0⟩
  | c :: places =>
    if c == '.' && places.all Char.isDigit && !(whole.isEmpty && places.isEmpty) then
      some ⟨Decimal.ofDigits (whole ++ places), -places.length⟩
    else none

/-- The number a token denotes: the token is a plain numeral, and the number nearest to it is
finite. -/
def value? (token : String) : Option Binary64 :=
  (plain? token.toList).bind fun d =>
    let x := Binary64.ofDecimal false d
    if x.isFinite then some x else none

end Abacus.Numeral
