import Abacus.Expression.Lexeme
import Abacus.Fault

/-!
# Evaluation by recursive descent

Expressions have two levels of left-associative operators, unary signs, and groups:

* an expression is a chain of terms joined by `+` and `-`;
* a term is a chain of factors joined by `*` and `/`;
* a factor is a sign before a factor, an expression in parentheses, or a number.

Values are computed while reading, strictly from the left, so the first fault met is the fault of
the whole: a zero divisor is reported as soon as the divisor is complete.

Nesting has a price: an open group counts three levels and a pending sign one. A group or a sign
that would exceed the limit is reported when it is met.

## Main definitions

* `Expression.Reading` — a value read from the front of the input, and the shorter rest.
* `Expression.expression`, `term`, `factor` — the three levels of the grammar.
* `Expression.evaluate` — the value of a list of tokens, or its fault.

## Design notes

Each level returns the rest of the input with the proof that it is shorter, which is what makes the
mutual recursion end.
-/

namespace Abacus.Expression

variable {α : Type}

/-- A value read from the front of `input`, and the lexemes that follow it. That something was read
is part of it, which is what makes the functions that read end. -/
structure Reading (α : Type) (input : List (Lexeme α)) where
  value : α
  rest : List (Lexeme α)
  shorter : rest.length < input.length

/-- A value after which zero or more operations were read from the front of `input`, and the
lexemes that follow them. -/
structure Continuation (α : Type) (input : List (Lexeme α)) where
  value : α
  rest : List (Lexeme α)
  notLonger : rest.length ≤ input.length

/-- The levels of nesting that an open group counts for: one for each level of the grammar that is
entered again inside it. -/
def groupDepth : Nat := 3

/-- The levels of nesting that a pending sign counts for. -/
def signDepth : Nat := 1

/-- A depth of nesting beyond the limit; without a limit there is none. A depth that is equal to the
limit is within it. -/
def exceeds (limit : Option Nat) (depth : Nat) : Bool :=
  match limit with
  | some most => most < depth
  | none => false

mutual

/-- Reads an expression at a depth of nesting. It does not look beyond the expression: what follows
is for the caller to judge. -/
def expression (A : Arithmetic α) (limit : Option Nat) (depth : Nat) (input : List (Lexeme α)) :
    Except Fault (Reading α input) :=
  match term A limit depth input with
  | .error fault => .error fault
  | .ok first =>
    have := first.shorter
    match sums A limit depth first.value first.rest with
    | .error fault => .error fault
    | .ok last => .ok ⟨last.value, last.rest, Nat.lt_of_le_of_lt last.notLonger first.shorter⟩
termination_by 3 * input.length + 2

/-- Reads the terms that are added to a value or subtracted from it. The value goes along, so that
operations apply from the left as soon as their right side is read. -/
def sums (A : Arithmetic α) (limit : Option Nat) (depth : Nat) (value : α)
    (input : List (Lexeme α)) : Except Fault (Continuation α input) :=
  match input with
  | [] => .ok ⟨value, [], Nat.le_refl _⟩
  | lexeme :: operand =>
    match A.sum? lexeme with
    | none => .ok ⟨value, lexeme :: operand, Nat.le_refl _⟩
    | some combine =>
      match term A limit depth operand with
      | .error fault => .error fault
      | .ok next =>
        have := next.shorter
        match combine value next.value with
        | .error fault => .error fault
        | .ok total =>
          match sums A limit depth total next.rest with
          | .error fault => .error fault
          | .ok last => .ok ⟨last.value, last.rest, by have := last.notLonger; grind⟩
termination_by 3 * input.length

/-- Reads a term at a depth of nesting. -/
def term (A : Arithmetic α) (limit : Option Nat) (depth : Nat) (input : List (Lexeme α)) :
    Except Fault (Reading α input) :=
  match factor A limit depth input with
  | .error fault => .error fault
  | .ok first =>
    have := first.shorter
    match products A limit depth first.value first.rest with
    | .error fault => .error fault
    | .ok last => .ok ⟨last.value, last.rest, Nat.lt_of_le_of_lt last.notLonger first.shorter⟩
termination_by 3 * input.length + 1

/-- Reads the factors that a value is multiplied or divided by. A zero divisor ends reading as soon
as it is read, before what follows it is looked at. -/
def products (A : Arithmetic α) (limit : Option Nat) (depth : Nat) (value : α)
    (input : List (Lexeme α)) : Except Fault (Continuation α input) :=
  match input with
  | [] => .ok ⟨value, [], Nat.le_refl _⟩
  | lexeme :: operand =>
    match A.product? lexeme with
    | none => .ok ⟨value, lexeme :: operand, Nat.le_refl _⟩
    | some combine =>
      match factor A limit depth operand with
      | .error fault => .error fault
      | .ok next =>
        have := next.shorter
        match combine value next.value with
        | .error fault => .error fault
        | .ok total =>
          match products A limit depth total next.rest with
          | .error fault => .error fault
          | .ok last => .ok ⟨last.value, last.rest, by have := last.notLonger; grind⟩
termination_by 3 * input.length

/-- Reads a factor at a depth of nesting. Signs and groups lead one or three levels deeper, and this
is where the limit is minded. -/
def factor (A : Arithmetic α) (limit : Option Nat) (depth : Nat) (input : List (Lexeme α)) :
    Except Fault (Reading α input) :=
  match input with
  | [] => .error .unexpectedEnd
  | lexeme :: rest =>
    match A.sign? lexeme with
    | some apply =>
      -- The depth is judged before the operand is looked at.
      if exceeds limit (depth + signDepth) then .error .tooDeep
      else
        match factor A limit (depth + signDepth) rest with
        | .error fault => .error fault
        | .ok inner => .ok ⟨apply inner.value, inner.rest, Nat.lt_succ_of_lt inner.shorter⟩
    | none =>
      match lexeme with
      | .number _ value => .ok ⟨value, rest, Nat.lt_succ_self _⟩
      | .opening =>
        if exceeds limit (depth + groupDepth) then .error .tooDeep
        else
          match expression A limit (depth + groupDepth) rest with
          | .error fault => .error fault
          | .ok ⟨value, .closing :: after, shorter⟩ => .ok ⟨value, after, by grind⟩
          | .ok _ => .error .missingClosingParen
      | other => .error (.invalidToken other.token)
termination_by 3 * input.length

end

/-- The value of the expression that a whole list of lexemes spells, or its fault. Lexemes behind a
complete expression are a fault too. -/
def evaluateLexemes (A : Arithmetic α) (limit : Option Nat) (input : List (Lexeme α)) :
    Except Fault α :=
  match expression A limit 0 input with
  | .error fault => .error fault
  | .ok reading =>
    match reading.rest with
    | [] => .ok reading.value
    | lexeme :: _ => .error (.unexpectedToken lexeme.token)

/-- The value of a list of tokens, or its fault. What a token means does not depend on where it
stands, so all are given their meaning first; the fault is that of the first place where reading
cannot go on. -/
def evaluate (A : Arithmetic α) (limit : Option Nat) (tokens : List String) : Except Fault α :=
  if tokens.isEmpty then .error .emptyExpression
  else evaluateLexemes A limit (tokens.map (Lexeme.ofToken A))

end Abacus.Expression
