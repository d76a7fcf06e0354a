import Abacus.Binary64.Text
import Abacus.Json.Basic
import Abacus.Text.Quoted

/-!
# JSON values as plain text

How a value is shown where text is expected: a string as it is, any other value as a literal, in
which the constants have names of their own and strings are quoted.

## Main definitions

* `Json.literal` — the literal of a value.
* `Json.plainText` — the text of a value.
-/

namespace Abacus.Json

mutual

/-- The literal of a value. It is what a value that is no string looks like where a text is needed,
as for the error of an entry. -/
def literal : Json → String
  | .null => "None"
  | .bool true => "True"
  | .bool false => "False"
  | .int n => toString n
  | .float x => x.literal
  | .str s => Text.quote s
  | .arr items => "[" ++ literalItems items ++ "]"
  | .obj members => "\x7b" ++ literalMembers members ++ "\x7d"

/-- The literals of the items of an array. -/
def literalItems : List Json → String
  | [] => ""
  | [v] => literal v
  | v :: rest => literal v ++ ", " ++ literalItems rest

/-- The literals of the members of an object. -/
def literalMembers : List (String × Json) → String
  | [] => ""
  | [(name, v)] => Text.quote name ++ ": " ++ literal v
  | (name, v) :: rest => Text.quote name ++ ": " ++ literal v ++ ", " ++ literalMembers rest

end

/-- The text of a value, where a text was expected and any value may stand: a string is that text,
and any other value is shown as a literal. -/
def plainText : Json → String
  | .str s => s
  | v => v.literal

end Abacus.Json
