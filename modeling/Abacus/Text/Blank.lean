import Abacus.Text.CharSet

/-!
# Blank characters

The characters that count as white space in expressions and batch files, and trimming by them.
The set is the Unicode white space together with the four separators U+001C to U+001F; zero-width
characters such as U+200B and U+FEFF are not in it.

## Main definitions

* `Text.isBlank` — the character class.
* `Text.trimBoth` — a text without the characters of a class at its two ends.
* `Text.trim` — a string without its leading and trailing blanks.
-/

namespace Abacus.Text

/-- The blank characters. -/
def blanks : CharSet where
  runs := [(0x09, 0x0D), (0x1C, 0x20), (0x85, 0x85), (0xA0, 0xA0), (0x1680, 0x1680),
    (0x2000, 0x200A), (0x2028, 0x2029), (0x202F, 0x202F), (0x205F, 0x205F), (0x3000, 0x3000)]

/-- A character that separates tokens and is trimmed from the ends of a line: the white space of
Unicode, and the four separators of ASCII. -/
def isBlank (c : Char) : Bool := blanks.contains c

/-- The text without the leading and trailing characters of a class. -/
def trimBoth (drop : Char → Bool) (cs : List Char) : List Char :=
  ((cs.dropWhile drop).reverse.dropWhile drop).reverse

/-- The string without its leading and trailing blanks. -/
def trim (s : String) : String := String.ofList (trimBoth isBlank s.toList)

/-- A text without any other character than blanks. -/
def isAllBlank (s : String) : Bool := s.toList.all isBlank

end Abacus.Text
