import Abacus.Json.Token

/-!
# Reading JSON text

A text is read token by token, with a stack of the arrays and objects that are still open.

## Main definitions

* `Json.State` — what is due next, and what is open around it.
* `Json.step` — the state after a token.
* `Json.read` — the value of a text.

## Design notes

A name that comes again in an object replaces the value and keeps the place of the first. Nesting
is limited, and the limit is met when an array or an object opens, so an error further on in the
text is never seen.
-/

namespace Abacus.Json

/-- An array or object that is open around a value. Frames stand for the calls of a reader by
descent, so their number is the nesting. -/
inductive Frame where
  /-- An array with the items before the value, last first. -/
  | array (items : List Json)
  /-- An object with the members before the value, and the value's name. -/
  | object (members : List (String × Json)) (name : String)

/-- What is due next, with the open frames around it, innermost first. It is all that a reader
remembers of the text so far. -/
inductive State where
  /-- A value. -/
  | value (around : List Frame)
  /-- The first item of an array or its end. -/
  | firstItem (around : List Frame)
  /-- A comma after an item, or the end of the array. Items are last first. -/
  | afterItem (items : List Json) (around : List Frame)
  /-- The first name of an object or its end. -/
  | firstName (around : List Frame)
  /-- A name after a comma. -/
  | name (members : List (String × Json)) (around : List Frame)
  /-- The colon after a name. -/
  | afterName (members : List (String × Json)) (name : String) (around : List Frame)
  /-- A comma after a member, or the end of the object. -/
  | afterMember (members : List (String × Json)) (around : List Frame)
  /-- The end of the text. -/
  | finished (v : Json)

/-- The deepest nesting of arrays and objects that is read. It stands for the room on the stack of a
reader that calls itself for every array and object, in an interpreter that allows a thousand calls;
what its callers take of them may make it a few levels more or less. -/
def nestingLimit : Nat := 990

/-- The state after a value is complete. The innermost frame takes it; without a frame the text has
to end. -/
def State.complete (v : Json) : List Frame → State
  | [] => .finished v
  | .array items :: around => .afterItem (v :: items) around
  | .object members key :: around => .afterMember (insertMember key v members) around

/-- The state after the first token of a value. An array or object that would be nested too deep is
refused before anything in it is read. -/
def State.begin (around : List Frame) : Token → Except ReadError State
  | .scalar v => .ok (.complete v around)
  | .openArray =>
    if nestingLimit ≤ around.length then .error .tooDeep else .ok (.firstItem around)
  | .openObject =>
    if nestingLimit ≤ around.length then .error .tooDeep else .ok (.firstName around)
  | .stop error => .error error
  | _ => .error .malformed

/-- The state after a token. Nesting is judged as soon as a bracket opens, before anything inside it
is looked at, and a token that is an error wins over what was due. -/
def step (state : State) (token : Token) : Except ReadError State :=
  match state, token with
  | _, .stop error => .error error
  | .value around, token => State.begin around token
  | .firstItem around, .closeArray => .ok (.complete (.arr []) around)
  | .firstItem around, token => State.begin (.array [] :: around) token
  | .afterItem items around, .comma => .ok (.value (.array items :: around))
  | .afterItem items around, .closeArray => .ok (.complete (.arr items.reverse) around)
  | .firstName around, .closeObject => .ok (.complete (.obj []) around)
  | .firstName around, .scalar (.str s) => .ok (.afterName [] s around)
  | .name members around, .scalar (.str s) => .ok (.afterName members s around)
  | .afterName members key around, .colon => .ok (.value (.object members key :: around))
  | .afterMember members around, .comma => .ok (.name members around)
  | .afterMember members around, .closeObject => .ok (.complete (.obj members) around)
  | _, _ => .error .malformed

/-- The value of a JSON text. Beyond the standard it takes the three words for numbers that are not
finite, and names that come again. Integers and nesting are limited, and a lone surrogate in a
string is read as U+FFFD. -/
def read (text : String) : Except ReadError Json :=
  match (Token.scan text.toList).foldlM step (.value []) with
  | .ok (.finished v) => .ok v
  | .ok _ => .error .malformed
  | .error error => .error error

end Abacus.Json
