/-!
# Sets of characters given by runs of code points

Character properties are tables: a `CharSet` lists the inclusive runs of code points that have the
property, in increasing order.

## Main definitions

* `CharSet` — the runs, and `CharSet.contains`, membership of a character.
-/

namespace Abacus

/-- A set of characters: inclusive runs `(first, last)` of code points, in increasing order. -/
structure CharSet where
  runs : List (Nat × Nat)
  deriving Repr

namespace CharSet

/-- Membership: the character's code point lies in one of the runs. -/
def contains (s : CharSet) (c : Char) : Bool :=
  s.runs.any fun run => run.1 ≤ c.toNat && c.toNat ≤ run.2

theorem contains_iff {s : CharSet} {c : Char} :
    s.contains c = true ↔ ∃ run ∈ s.runs, run.1 ≤ c.toNat ∧ c.toNat ≤ run.2 := by
  simp [contains, List.any_eq_true]

end CharSet

end Abacus
