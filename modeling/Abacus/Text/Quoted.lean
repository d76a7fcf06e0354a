import Abacus.Text.Hex
import Abacus.Text.Printable

/-!
# Quoted text

How messages show a text that may hold anything: in single quotes, or in double quotes if it has
single ones and no double ones, with the characters that cannot be shown escaped.

## Main definitions

* `Text.quote` — the text in quotes.
-/

namespace Abacus.Text

/-- The quote that stands around a text. -/
def quoteMark (cs : List Char) : Char :=
  if cs.contains '\'' && !cs.contains '"' then '"' else '\''

/-- A character that is not printable: the shortest of the three hexadecimal forms. They have two,
four and eight digits. -/
def hexEscape (c : Char) : List Char :=
  if c.toNat < 0x100 then '\\' :: 'x' :: writeHex 2 c.toNat
  else if c.toNat < 0x10000 then '\\' :: 'u' :: writeHex 4 c.toNat
  else '\\' :: 'U' :: writeHex 8 c.toNat

/-- A character between quotes. -/
def quoteChar (mark c : Char) : List Char :=
  if c = mark ∨ c = '\\' then ['\\', c]
  else if c = '\n' then ['\\', 'n']
  else if c = '\r' then ['\\', 'r']
  else if c = '\t' then ['\\', 't']
  else if isPrintable c then [c]
  else hexEscape c

/-- A text in quotes. -/
def quote (s : String) : String :=
  let mark := quoteMark s.toList
  String.ofList (mark :: s.toList.flatMap (quoteChar mark) ++ [mark])

end Abacus.Text
