import Abacus.Binary64.Text
import Abacus.Proofs.Decimal.Significant

/-!
# Numbers with so many digits

A number is displayed with a number of significant digits by rounding its exact value once. Asking
for more digits than the exact value has shows it exactly.

## Main statements

* `Binary64.display?_some_finite` — the text of a number with a number of digits.
* `Binary64.display?_isRounded` — it is the rounded value, in the notation that this value calls
  for.
-/

namespace Abacus.Binary64

open Decimal

variable {quanta count : ℕ}

/-- The text of a number that is not zero, with a number of digits in range. -/
theorem display?_some_finite (positive : 0 < count) (most : (count : ℤ) ≤ maxDigits)
    (nonzero : quanta ≠ 0) (negative : Bool) (onGrid : OnGrid quanta) :
    (finite negative quanta onGrid).display? (some count) =
      some (String.ofList (writeSign negative ++
        ((exactDecimal quanta).roundTo count).write ⟨count, []⟩)) := by
  have digits : max 1 (count : ℤ).toNat = count := by
    rw [Int.toNat_natCast]
    exact max_eq_right positive
  rw [display?, if_neg (by simp [isZero, nonzero]), if_pos ⟨Int.natCast_nonneg count, most⟩, digits]
  rfl

/-- **A number is displayed with a number of digits** as the value that its exact one is rounded to,
half to even, with its own sign. The text means that value, and has the notation, the digits and the
exponent that the value calls for. -/
theorem display?_isRounded (positive : 1 ≤ count) (most : (count : ℤ) ≤ maxDigits)
    (nonzero : quanta ≠ 0) (negative : Bool) (onGrid : OnGrid quanta) :
    ∃ q text, (∀ q', IsRounded count (toRat quanta) q' ↔ q' = q) ∧ Shows count q text ∧
      (finite negative quanta onGrid).display? (some count) =
        some (String.ofList (writeSign negative ++ text)) := by
  have exact_ne_zero := significand_exactDecimal_ne_zero nonzero
  have rounded := isRounded_roundTo exact_ne_zero count
  rw [toRat_exactDecimal] at rounded
  refine ⟨_, _, fun q' => ⟨fun rounded' => rounded'.unique rounded, ?_⟩,
    shows_write (significand_roundTo_ne_zero exact_ne_zero positive) positive,
    display?_some_finite positive most nonzero negative onGrid⟩
  rintro rfl
  exact rounded

/-- Nine and a half with one digit are ten, and ten with one digit has an exponent. -/
theorem display?_carries : ∃ onGrid : OnGrid (19 * (one / 2)),
    ((1 : ℕ) : ℤ) ≤ maxDigits ∧ 19 * (one / 2) ≠ 0 ∧
      (finite true (19 * (one / 2)) onGrid).display? (some (1 : ℕ)) = some "-1e+01" ∧
      ∃ q, IsRounded 1 (toRat (19 * (one / 2))) q ∧ Shows 1 q ['1', 'e', '+', '0', '1'] := by
  have onGrid : OnGrid (19 * (one / 2)) := by decide +kernel
  have nonzero : 19 * (one / 2) ≠ 0 := by decide +kernel
  have digits : ((1 : ℕ) : ℤ) ≤ maxDigits := by decide
  have written : ((exactDecimal (19 * (one / 2))).roundTo 1).write ⟨(1 : ℕ), []⟩ =
      ['1', 'e', '+', '0', '1'] := by
    decide +kernel
  have shown := display?_some_finite Nat.one_pos digits nonzero true onGrid
  rw [written] at shown
  obtain ⟨q, text, rounded, shows, displayed⟩ :=
    display?_isRounded le_rfl digits nonzero true onGrid
  rw [shown, Option.some_inj, String.ofList_inj, List.append_cancel_left_eq] at displayed
  exact ⟨onGrid, digits, nonzero, shown, q, (rounded q).2 rfl, displayed ▸ shows⟩

end Abacus.Binary64
