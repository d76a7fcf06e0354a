/-!
# Faults of an expression

What can be wrong with an expression. A fault carries the text it points at, where there is one.

## Main definitions

* `FaultKind` — the eight kinds, with `FaultKind.code` for machines and `FaultKind.message` for
  people.
* `Fault` — a kind with the token or character at fault, and `Fault.message`.

## Main statements

* `FaultKind.ofCode?_code` — identifiers are read back.
-/

namespace Abacus

/-- The kinds of faults. Programs know a kind by its identifier, people by its wording, which may
change. -/
inductive FaultKind where
  | emptyExpression
  | invalidToken
  | unexpectedToken
  | unexpectedEnd
  | missingClosingParen
  | divisionByZero
  | invalidCharacter
  | tooDeep
  deriving DecidableEq, Repr

namespace FaultKind

/-- Every kind, in order of declaration. -/
def all : List FaultKind :=
  [emptyExpression, invalidToken, unexpectedToken, unexpectedEnd, missingClosingParen,
    divisionByZero, invalidCharacter, tooDeep]

/-- The kind's stable identifier. It tells faults apart without their wording. -/
def code : FaultKind → String
  | emptyExpression => "empty-expression"
  | invalidToken => "invalid-token"
  | unexpectedToken => "unexpected-token"
  | unexpectedEnd => "unexpected-end"
  | missingClosingParen => "missing-closing-paren"
  | divisionByZero => "division-by-zero"
  | invalidCharacter => "invalid-character"
  | tooDeep => "too-deep"

/-- The kind with a given identifier. -/
def ofCode? (code : String) : Option FaultKind := all.find? fun kind => kind.code == code

/-- Every kind is found by its identifier, so no two kinds share one. -/
theorem ofCode?_code (kind : FaultKind) : ofCode? kind.code = some kind := by
  cases kind <;> decide +kernel

/-- The wording of a kind about a token. Three kinds name the token; where there is none, they
say `None`. -/
def message (kind : FaultKind) (token : Option String) : String :=
  match kind with
  | emptyExpression => "Empty expression"
  | invalidToken => "Invalid token: " ++ token.getD "None"
  | unexpectedToken => "Unexpected token: " ++ token.getD "None"
  | unexpectedEnd => "Unexpected end of expression"
  | missingClosingParen => "Missing closing parenthesis"
  | divisionByZero => "Division by zero"
  | invalidCharacter => "Invalid character: " ++ token.getD "None"
  | tooDeep => "Expression too deeply nested"

end FaultKind

/-- A fault of an expression. Only a fault of a kind that names a token carries one, so that none
can be made whose wording lacks it. -/
inductive Fault where
  /-- There is nothing to evaluate. -/
  | emptyExpression
  /-- An operand was expected and the token is none. -/
  | invalidToken (token : String)
  /-- A complete expression is followed by a token that does not continue it. -/
  | unexpectedToken (token : String)
  /-- An operand was expected and the expression ends. -/
  | unexpectedEnd
  /-- An open group is followed by the end or by a token that neither continues nor closes it. -/
  | missingClosingParen
  /-- A divisor is zero. -/
  | divisionByZero
  /-- A strict scan met a character of no known class. -/
  | invalidCharacter (character : Char)
  /-- Groups and signs are nested beyond the limit. -/
  | tooDeep
  deriving DecidableEq, Repr

namespace Fault

/-- The kind of a fault. What is left out is the token or the character that the fault is about. -/
def kind : Fault → FaultKind
  | emptyExpression => .emptyExpression
  | invalidToken _ => .invalidToken
  | unexpectedToken _ => .unexpectedToken
  | unexpectedEnd => .unexpectedEnd
  | missingClosingParen => .missingClosingParen
  | divisionByZero => .divisionByZero
  | invalidCharacter _ => .invalidCharacter
  | tooDeep => .tooDeep

/-- The token or character at fault, where there is one. It is what stands in the text, not what was
expected in its place. -/
def token? : Fault → Option String
  | invalidToken token | unexpectedToken token => some token
  | invalidCharacter c => some (String.singleton c)
  | _ => none

/-- The wording of a fault. It names the token or the character, if it is about one, as it stands in
the text. -/
def message (fault : Fault) : String := fault.kind.message fault.token?

end Fault

end Abacus
