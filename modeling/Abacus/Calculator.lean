import Abacus.Expression.Evaluate
import Abacus.Numeral.Plain
import Abacus.Outcome
import Abacus.Token

/-!
# The calculator

Expressions evaluated in binary64 numbers, from tokens or from text. The evaluator is the one of
`Expression.evaluate`, at one arithmetic and one limit of nesting; what is proved of it there holds
for all others as well.

## Main definitions

* `Calculator.arithmetic` — binary64 arithmetic on plain numerals.
* `Calculator.evaluate` — the number that a list of tokens evaluates to, or its fault.
* `Calculator.outcomeOfTokens`, `Calculator.outcomeOfText` — the outcome of tokens and of text.
-/

namespace Abacus.Calculator

/-- Binary64 arithmetic on plain numerals. The grammar is read over any arithmetic; this is the one
that the calculator has. -/
def arithmetic : Arithmetic Binary64 where
  read? := Numeral.value?
  neg := Binary64.neg
  add := Binary64.add
  sub := Binary64.sub
  mul := Binary64.mul
  div := Binary64.div
  isZero := Binary64.isZero

/-- The deepest nesting that is evaluated: a parenthesis nests three levels deep and a sign one.

The number stands for the room on the stack of an evaluator that calls itself, in an interpreter
that allows a thousand calls, the callers' own among them. Two callers may differ by a call, and it
takes a call or two more to raise a fault than to read a number; so within two levels of the limit
such an evaluator may already find the nesting too deep, where this one still reads on. -/
def depthLimit : Nat := 990

/-- The number that a list of tokens evaluates to, or its fault. Tokens may be any strings: what is
no numeral, operator or parenthesis is found where a value or an operator is due. -/
def evaluate (tokens : List String) : Except Fault Binary64 :=
  Expression.evaluate arithmetic (some depthLimit) tokens

/-- The outcome of a list of tokens. The tokens may be any strings. They need not come from a
text. -/
def outcomeOfTokens (tokens : List String) : Outcome := .ofExcept (evaluate tokens)

/-- The outcome of a text: it is trimmed, cut into tokens and evaluated. A blank text has an outcome
of its own, and a strict scan fails before anything is evaluated. -/
def outcomeOfText (strict : Bool) (text : String) : Outcome :=
  let trimmed := Text.trim text
  if trimmed.isEmpty then .failure Fault.emptyExpression.message
  else
    match Token.scan strict trimmed with
    | .error fault => .failure fault.message
    | .ok tokens => outcomeOfTokens tokens

end Abacus.Calculator
