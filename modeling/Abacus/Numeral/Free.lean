import Abacus.Numeral.Plain
import Abacus.Text.Blank
import Abacus.Text.Digit

/-!
# Free numerals

Numbers as settings, options and stored reports may spell them: with blanks around, a sign, decimal
digits of any script, and single underscores between digits. Real numerals also have an exponent,
or are a word for an infinity or for NaN in any case. Counts, from one on, are plainer: they have no
minus and ASCII digits only, but a point and zeros may follow.

## Main definitions

* `Numeral.real?` — the binary64 number a text spells.
* `Numeral.integer?` — the integer a text spells, of at most `Numeral.maxIntegerDigits` digits.
* `Numeral.count?` — the number from one on that a text spells, of as many digits.
-/

namespace Abacus.Numeral

/-- Blanks that may stand around a free numeral. The separators U+001C to U+001F may not. -/
def isMargin (c : Char) : Bool := Text.isBlank c && !(0x1C ≤ c.toNat && c.toNat ≤ 0x1F)

/-- Decimal digits of any script replaced by the ASCII ones. One number may mix the digits of
scripts. -/
def plainDigits (cs : List Char) : List Char :=
  cs.map fun c =>
    match Text.digitValue? c with
    | some n => Char.ofNat ('0'.toNat + n)
    | none => c

/-- The text without its underscores, each of which has to stand between two digits. There is none
where an underscore stands elsewhere. -/
def ungroup : List Char → Option (List Char)
  | [] => some []
  | '_' :: _ => none
  | [c] => some [c]
  | c :: '_' :: d :: cs =>
    if c.isDigit && d.isDigit then (ungroup (d :: cs)).map (c :: ·) else none
  | c :: cs => (ungroup cs).map (c :: ·)

/-- The sign in front of a text, and what follows it; no sign is a plus. -/
def splitSign : List Char → Bool × List Char
  | '-' :: cs => (true, cs)
  | '+' :: cs => (false, cs)
  | cs => (false, cs)

/-- An exponent: digits with an optional sign. -/
def exponent? (cs : List Char) : Option Int :=
  let (negative, ds) := splitSign cs
  if ds.isEmpty || !ds.all Char.isDigit then none
  else
    let n : Int := Decimal.ofDigits ds
    some (if negative then -n else n)

/-- The decimal denoted by a plain numeral with an optional exponent. The exponent may be as large
as it likes, since nothing is computed from it here. -/
def scientific? (cs : List Char) : Option Decimal :=
  let isMark (c : Char) : Bool := c == 'e' || c == 'E'
  match cs.dropWhile (!isMark ·) with
  | [] => plain? cs
  | _ :: power => do
    let d ← plain? (cs.takeWhile (!isMark ·))
    let e ← exponent? power
    some { d with exponent := d.exponent + e }

/-- The words for numbers that are not finite, in lower case. -/
def wordValue? (negative : Bool) (word : String) : Option Binary64 :=
  if word == "inf" || word == "infinity" then some (.infinite negative)
  else if word == "nan" then some .nan
  else none

/-- The number that a text spells. Other than a token it may have a sign and an exponent, or be a
word; and it may be too large to be finite, and is an infinity then. -/
def real? (text : String) : Option Binary64 := do
  let cs ← ungroup (plainDigits (Text.trimBoth isMargin text.toList))
  let (negative, body) := splitSign cs
  match wordValue? negative (String.ofList (body.map Char.toLower)) with
  | some x => some x
  | none => (scientific? body).map (Binary64.ofDecimal negative)

/-- The most digits that an integer may have. The time that reading takes grows with the square of
their number, so that longer integers are refused, whatever they are. -/
def maxIntegerDigits : Nat := 4300

/-- The integer that a text spells. The zeros in front count as digits. A text with too many of them
spells none. -/
def integer? (text : String) : Option Int := do
  let cs ← ungroup (plainDigits (Text.trimBoth isMargin text.toList))
  let (negative, ds) := splitSign cs
  if ds.isEmpty || !ds.all Char.isDigit || maxIntegerDigits < ds.length then none
  else
    let n : Int := Decimal.ofDigits ds
    some (if negative then -n else n)

/-- The text in front of a point that nothing but zeros follows, or all of a text without a
point. -/
def wholePart? (cs : List Char) : Option (List Char) :=
  match cs.dropWhile (· != '.') with
  | [] => some cs
  | _ :: zeros => if zeros.all (· == '0') then some (cs.takeWhile (· != '.')) else none

/-- The text without the zeros in front and the underscores among them. -/
def dropZeros (cs : List Char) : List Char :=
  match cs with
  | '0' :: _ => cs.dropWhile fun c => c == '0' || c == '_'
  | _ => cs

/-- The count that a text spells. The zeros in front do not count as digits. A minus sign is not
taken, not even before a zero. -/
def count? (text : String) : Option Nat := do
  let cs := Text.trimBoth isMargin text.toList
  let unsigned := match cs with
    | '+' :: rest => rest
    | _ => cs
  let whole ← wholePart? unsigned
  let ds ← ungroup (dropZeros whole)
  if ds.isEmpty || !ds.all Char.isDigit || maxIntegerDigits < ds.length then none
  else some (Decimal.ofDigits ds)

end Abacus.Numeral
