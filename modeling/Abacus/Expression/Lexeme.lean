import Abacus.Fault

/-!
# Lexemes of expressions

What a token means to an expression: one of the four operators, a parenthesis, a number with its
value, or a word that means nothing. Which tokens are numbers is left to the arithmetic that
evaluates them.

## Main definitions

* `Arithmetic` — the numbers of an expression and the operations on them.
* `Lexeme` — the meaning of a token, `Lexeme.ofToken`.
* `Arithmetic.sum?`, `product?`, `sign?` — what a lexeme does between two terms, between two
  factors, and before a factor.
-/

namespace Abacus

/-- The numbers that an expression is evaluated in: how tokens denote them, the four operations,
the sign, and the zeros that may not divide. -/
structure Arithmetic (α : Type) where
  read? : String → Option α
  neg : α → α
  add : α → α → α
  sub : α → α → α
  mul : α → α → α
  div : α → α → α
  isZero : α → Bool

/-- The meaning of a token. A sign before a factor is the same lexeme as the operator between two
terms; where it is met decides which of the two it is. -/
inductive Lexeme (α : Type) where
  | plus
  | minus
  | times
  | divide
  | opening
  | closing
  /-- A token that denotes a number. -/
  | number (token : String) (value : α)
  /-- Any other token. -/
  | word (token : String)
  deriving DecidableEq, Repr

namespace Lexeme

variable {α : Type}

/-- The lexeme of a token. Symbols come first, then numbers; any other string is a word, which no
expression has. -/
def ofToken (A : Arithmetic α) (token : String) : Lexeme α :=
  if token = "+" then .plus
  else if token = "-" then .minus
  else if token = "*" then .times
  else if token = "/" then .divide
  else if token = "(" then .opening
  else if token = ")" then .closing
  else
    match A.read? token with
    | some value => .number token value
    | none => .word token

/-- The token of a lexeme. -/
def token : Lexeme α → String
  | plus => "+"
  | minus => "-"
  | times => "*"
  | divide => "/"
  | opening => "("
  | closing => ")"
  | number token _ | word token => token

@[simp]
theorem token_ofToken (A : Arithmetic α) (token : String) : (ofToken A token).token = token := by
  unfold ofToken
  repeat' split
  all_goals simp_all [Lexeme.token]

end Lexeme

namespace Arithmetic

variable {α : Type}

/-- The operation that a lexeme stands for between two terms. -/
def sum? (A : Arithmetic α) : Lexeme α → Option (α → α → Except Fault α)
  | .plus => some fun x y => .ok (A.add x y)
  | .minus => some fun x y => .ok (A.sub x y)
  | _ => none

/-- The operation that a lexeme stands for between two factors. A zero does not divide. -/
def product? (A : Arithmetic α) : Lexeme α → Option (α → α → Except Fault α)
  | .times => some fun x y => .ok (A.mul x y)
  | .divide => some fun x y => if A.isZero y then .error .divisionByZero else .ok (A.div x y)
  | _ => none

/-- The operation that a lexeme stands for before a factor. A plus sign there changes nothing. -/
def sign? (A : Arithmetic α) : Lexeme α → Option (α → α)
  | .minus => some A.neg
  | .plus => some id
  | _ => none

end Arithmetic

end Abacus
