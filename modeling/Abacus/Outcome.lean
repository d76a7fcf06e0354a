import Abacus.Binary64.Basic
import Abacus.Fault

/-!
# Outcomes

The outcome of an evaluation is a number or a message, never both and never neither.

## Main definitions

* `Outcome` — a value or a failure, `Outcome.ofExcept`.
* `Outcome.ofParts?` — the outcome with at most a value and at most a message given.
-/

namespace Abacus

/-- The outcome of one evaluation: a value, or the wording of what was wrong. The fault itself is
not kept, so outcomes can be written down and read back without losing anything. -/
inductive Outcome where
  | value (x : Binary64)
  | failure (message : String)
  deriving DecidableEq

namespace Outcome

/-- The outcome of an evaluation that may end in a fault. Of a fault only the wording is kept. -/
def ofExcept : Except Fault Binary64 → Outcome
  | .ok x => value x
  | .error fault => failure fault.message

/-- Whether there is a value. -/
def isValue : Outcome → Bool
  | value _ => true
  | failure _ => false

/-- The value of a successful outcome. -/
def value? : Outcome → Option Binary64
  | value x => some x
  | failure _ => none

/-- The message of a failed outcome. -/
def message? : Outcome → Option String
  | value _ => none
  | failure message => some message

/-- The outcome of which the given part is known; there is none if both parts or neither are
given. -/
def ofParts? : Option Binary64 → Option String → Option Outcome
  | some x, none => some (value x)
  | none, some message => some (failure message)
  | _, _ => none

/-- What is wrong with parts that make no outcome. -/
def partsMessage : String := "CalcResult needs exactly one of result or error"

end Outcome

end Abacus
