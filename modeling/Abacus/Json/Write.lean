import Abacus.Binary64.Text
import Abacus.Json.Basic
import Abacus.Json.Quoted

/-!
# Writing JSON text

JSON text in ASCII, two blanks deeper for each level of nesting, one item or member a line. Binary64
numbers are written as their literals, so they read back as themselves; a number that is not finite
has no JSON text.

## Main definitions

* `Json.isFinite` — no number in a value is infinite or NaN.
* `Json.write` — the text of a value.
* `Json.write?` — the text of a value that has one.
-/

namespace Abacus.Json

mutual

/-- No number in the value is infinite or NaN. These have no JSON text; a value without any can be
written. -/
def isFinite : Json → Bool
  | .float x => x.isFinite
  | .arr items => allFinite items
  | .obj members => allMembersFinite members
  | _ => true

/-- No number in the items is infinite or NaN. -/
def allFinite : List Json → Bool
  | [] => true
  | v :: rest => v.isFinite && allFinite rest

/-- No number in the members is infinite or NaN. -/
def allMembersFinite : List (String × Json) → Bool
  | [] => true
  | (_, v) :: rest => v.isFinite && allMembersFinite rest

end

/-- A new line at a level of nesting. Each level is indented by two blanks. -/
def newLine (level : Nat) : List Char := '\n' :: List.replicate (2 * level) ' '

/-- The digits of an integer, with its sign if it is negative. -/
def writeInt (n : Int) : List Char := Binary64.writeSign (n < 0) ++ Decimal.digits n.natAbs

/-- A string in quotes. -/
def writeString (s : String) : List Char := '"' :: Quoted.encode s.toList ++ ['"']

mutual

/-- The text of a value whose lines stand at a level of nesting. Empty arrays and objects stay on
one line. -/
def writeAt (level : Nat) : Json → List Char
  | .null => "null".toList
  | .bool true => "true".toList
  | .bool false => "false".toList
  | .int n => writeInt n
  | .float x => x.literal.toList
  | .str s => writeString s
  | .arr [] => ['[', ']']
  | .arr items => '[' :: writeItems (level + 1) items ++ newLine level ++ [']']
  | .obj [] => ['\x7b', '\x7d']
  | .obj members => '\x7b' :: writeMembers (level + 1) members ++ newLine level ++ ['\x7d']

/-- The items of an array, each on its line. -/
def writeItems (level : Nat) : List Json → List Char
  | [] => []
  | [v] => newLine level ++ writeAt level v
  | v :: rest => newLine level ++ writeAt level v ++ ',' :: writeItems level rest

/-- The members of an object, each on its line. -/
def writeMembers (level : Nat) : List (String × Json) → List Char
  | [] => []
  | [(name, v)] => newLine level ++ writeString name ++ ':' :: ' ' :: writeAt level v
  | (name, v) :: rest =>
    newLine level ++ writeString name ++ ':' :: ' ' :: writeAt level v ++
      ',' :: writeMembers level rest

end

/-- The text of a value: items and members each on a line of their own, two blanks further in for
every level. It is written even if numbers in it are not finite, which JSON has no words for. -/
def write (v : Json) : String := String.ofList (v.writeAt 0)

/-- The JSON text of a value; there is none if a number in it is not finite. Strict writing refuses
such a value as a whole, wherever the number is in it. -/
def write? (v : Json) : Option String := if v.isFinite then some v.write else none

end Abacus.Json
