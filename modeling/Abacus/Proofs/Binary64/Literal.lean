import Abacus.Binary64.Text
import Abacus.Proofs.Decimal.Notation

/-!
# Literals are read back

The literal of a finite number is its sign and a numeral that is read as the number. It has a point
or a power of ten, so that it is not taken for an integer.

## Main statements

* `Binary64.exists_spells_literal` — the numeral in a literal.
-/

namespace Abacus.Binary64

/-- What a decimal is read as has the sign that is asked for, and the same magnitude. -/
theorem ofDecimal_eq_finite {negative : Bool} {d : Decimal} {quanta : Nat} {h : OnGrid quanta}
    (read : ofDecimal negative d = finite negative quanta h) (negative' : Bool) :
    ofDecimal negative' d = finite negative' quanta h := by
  rw [ofDecimal_eq_nearest _ (fraction_den_pos d) (toRat_eq_div d), nearest, round] at read ⊢
  split at read
  · next below =>
      cases read
      rw [dif_pos below]
  · cases read

/-- **A literal is read back.** It always has a point or an exponent, so it is never taken for an
integer. -/
theorem exists_spells_literal (negative : Bool) {quanta : Nat} (h : OnGrid quanta) :
    ∃ (d : Decimal) (cs : List Char),
      (finite negative quanta h).literal.toList = writeSign negative ++ cs ∧ Numeral.Spells d cs ∧
      (∃ c ∈ cs, c.isDigit = false) ∧ ofDecimal negative d = finite negative quanta h := by
  obtain ⟨d, spelled, value⟩ :=
    Decimal.spells_write (.inr rfl : literalLayout.wholeMark = [] ∨ _) (shortestDecimal quanta)
  refine ⟨d, _, ?_, spelled, Decimal.exists_not_isDigit_write rfl _, ?_⟩
  · rw [literal, writeWith, String.toList_ofList]
  · rw [ofDecimal_congr negative value]
    exact ofDecimal_eq_finite (ofDecimal_shortestDecimal h) negative

end Abacus.Binary64
