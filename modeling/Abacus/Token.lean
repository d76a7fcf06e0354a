import Abacus.Fault
import Abacus.Text.Blank

/-!
# Tokens

A text is cut into tokens at every blank, around every symbol, and wherever digits and points meet
other characters. Numbers are grouped here and judged later: `2.5.5` is one token. A strict reading
refuses a text that has a character outside blanks, digits, the point and the six symbols.

## Main definitions

* `CharClass` — the four classes of characters, `CharClass.of`.
* `Token.Pass` — the state of a scan, `Token.Pass.step` for one more character.
* `Token.scan` — the tokens of a text, lenient or strict.
* `TokenKind.of` — the coarse kind of a token, for display.
-/

namespace Abacus

/-- What a character does to the tokens around it. -/
inductive CharClass where
  /-- Separates tokens and belongs to none. -/
  | blank
  /-- A digit or a point: joins its neighbours of the same class. -/
  | numeric
  /-- An operator or a parenthesis: a token of its own. -/
  | symbol
  /-- Anything else: joins its neighbours of the same class. -/
  | other
  deriving DecidableEq, Repr

namespace CharClass

/-- An ASCII digit or the point. Digits of other scripts are no digits here, although a setting may
be written in them. -/
def isNumeric (c : Char) : Bool := c.isDigit || c == '.'

/-- One of the four operators. -/
def isOperator (c : Char) : Bool := c == '+' || c == '-' || c == '*' || c == '/'

/-- One of the two parentheses. -/
def isParen (c : Char) : Bool := c == '(' || c == ')'

/-- The class of a character. Every character has one, and strict scans refuse the last. -/
def of (c : Char) : CharClass :=
  if Text.isBlank c then .blank
  else if isNumeric c then .numeric
  else if isOperator c || isParen c then .symbol
  else .other

end CharClass

namespace Token

/-- How far a text is scanned: the tokens that are complete, and the characters of the one that is
not. Both stand last first. -/
structure Pass where
  tokens : List String
  pending : List Char
  /-- Whether the pending characters are digits and points. Where there are none it says nothing:
  it is set when a character joins, and stays as it was when a token is complete. -/
  numeric : Bool
  deriving DecidableEq, Repr

namespace Pass

/-- Before the first character. -/
def start : Pass := ⟨[], [], false⟩

/-- The pending characters, if there are any, are a token. -/
def flush (pass : Pass) : Pass :=
  if pass.pending.isEmpty then pass
  else { pass with
    tokens := String.ofList pass.pending.reverse :: pass.tokens
    pending := [] }

/-- A character joins the pending ones. If these are of the other class, they are a token first. The
flag is that of the pending characters, and means nothing if there are none. -/
def join (pass : Pass) (numeric : Bool) (c : Char) : Pass :=
  let apart := if !pass.pending.isEmpty && pass.numeric != numeric then pass.flush else pass
  { apart with pending := c :: apart.pending, numeric := numeric }

/-- The pass over one character. A strict pass refuses a character of no known class, whatever was
read before it. -/
def step (strict : Bool) (pass : Pass) (c : Char) : Except Fault Pass :=
  match CharClass.of c with
  | .blank => .ok pass.flush
  | .numeric => .ok (pass.join true c)
  | .symbol => .ok { pass.flush with tokens := String.singleton c :: pass.flush.tokens }
  | .other => if strict then .error (.invalidCharacter c) else .ok (pass.join false c)

end Pass

/-- The tokens of a text, by one pass over its characters. A strict scan refuses the first character
of no known class, and a lenient one takes every text. Characters are those of Unicode: a text with
half a surrogate pair, which a shell can hand to a program, is none. -/
def scan (strict : Bool) (text : String) : Except Fault (List String) :=
  (text.toList.foldlM (Pass.step strict) .start).map fun pass => pass.flush.tokens.reverse

end Token

/-- The coarse kind of a token. -/
inductive TokenKind where
  | number
  | operator
  | paren
  | unknown
  deriving DecidableEq, Repr

namespace TokenKind

/-- The kind of a token: a single operator or parenthesis, a run of digits and points, or
neither. -/
def of (token : String) : TokenKind :=
  match token.toList with
  | [] => .unknown
  | c :: cs =>
    if cs.isEmpty && CharClass.isOperator c then .operator
    else if cs.isEmpty && CharClass.isParen c then .paren
    else if (c :: cs).all CharClass.isNumeric then .number
    else .unknown

/-- The word shown for a kind. -/
def name : TokenKind → String
  | number => "number"
  | operator => "operator"
  | paren => "paren"
  | unknown => "unknown"

end TokenKind

end Abacus
