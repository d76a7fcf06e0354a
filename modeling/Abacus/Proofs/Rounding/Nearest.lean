import Mathlib
import Abacus.Rounding

/-!
# The nearest whole number

A rounded quotient is the whole number nearest to the quotient, and the even one of two that are
equally near. This tells it completely: no two whole numbers are both nearest and even, as the
number between them would be nearer. A grid of multiples of a unit is rounded to by rounding the
number of units.

## Main definitions

* `IsNearestWhole` — a whole number is nearest to a rational, ties to even.

## Main statements

* `isNearestWhole_roundQuotient` — the rounded quotient is nearest to the quotient.
* `IsNearestWhole.unique` — there is one nearest whole number.
* `IsNearestWhole.abs_mul_sub_le`, `IsNearestWhole.even_of_tie` — the same for multiples of a unit.
-/

namespace Abacus

/-- The whole number is nearest to a rational, and even if another one is equally near. At most one
number is; that rounding finds it says all about rounding. -/
structure IsNearestWhole (r : ℚ) (n : ℕ) : Prop where
  nearest : ∀ k : ℕ, |n - r| ≤ |k - r|
  even : ∀ k : ℕ, k ≠ n → |n - r| = |k - r| → 2 ∣ n

variable {r : ℚ} {n n' k num den : ℕ}

/-- What lies between two equally near numbers is nearer than both. -/
theorem abs_sub_lt_of_tie {a b c : ℚ} (tie : |a - r| = |c - r|) (left : a < b) (right : b < c) :
    |b - r| < |a - r| := by
  rcases abs_eq_abs.1 tie with same | opposite
  · linarith
  · have centre : r = (a + c) / 2 := by linarith
    rw [abs_of_nonpos (by linarith : a - r ≤ 0), abs_lt]
    constructor <;> linarith

theorem one_le_abs_sub (other : k ≠ n) : (1 : ℚ) ≤ |(k : ℚ) - n| := by
  have apart : (1 : ℤ) ≤ |(k : ℤ) - n| := by
    apply Int.one_le_abs
    omega
  exact_mod_cast apart

/-- A whole number within half a unit is nearest. -/
theorem abs_sub_le_of_half (half : 2 * |(n : ℚ) - r| ≤ 1) (k : ℕ) : |(n : ℚ) - r| ≤ |k - r| := by
  by_cases same : k = n
  · rw [same]
  · have apart := one_le_abs_sub same
    have detour := abs_sub_le (k : ℚ) r n
    rw [abs_sub_comm r] at detour
    linarith

/-- Only half-way between two whole numbers are both equally near. -/
theorem two_mul_abs_sub_eq_one (half : 2 * |(n : ℚ) - r| ≤ 1) (other : k ≠ n)
    (tie : |(n : ℚ) - r| = |k - r|) : 2 * |(n : ℚ) - r| = 1 := by
  have apart := one_le_abs_sub other
  have detour := abs_sub_le (k : ℚ) r n
  rw [abs_sub_comm r] at detour
  linarith

/-- The rounded quotient is within half a unit of the quotient. -/
theorem two_mul_abs_roundQuotient_sub_le (num : ℕ) (positive : 0 < den) :
    2 * |(roundQuotient num den : ℚ) - num / den| ≤ 1 := by
  obtain ⟨least, most⟩ := roundQuotient_error num positive
  have unit : (0 : ℚ) < den := Nat.cast_pos.2 positive
  have least' : (2 * num : ℚ) ≤ 2 * (roundQuotient num den * den) + den := by exact_mod_cast least
  have most' : (2 * (roundQuotient num den * den) : ℚ) ≤ 2 * num + den := by exact_mod_cast most
  have scaled : (roundQuotient num den : ℚ) - num / den =
      (roundQuotient num den * den - num) / den := by
    field_simp
  rw [scaled, abs_div, abs_of_pos unit, ← mul_div_assoc, div_le_one unit, ← abs_two, ← abs_mul,
    abs_le]
  constructor <;> linarith

/-- Half-way between two whole numbers a quotient is rounded to the even one. -/
theorem even_roundQuotient (positive : 0 < den)
    (tie : 2 * |(roundQuotient num den : ℚ) - num / den| = 1) : 2 ∣ roundQuotient num den := by
  have unit : (0 : ℚ) < den := Nat.cast_pos.2 positive
  have split : (num : ℚ) / den = (num / den : ℕ) + (num % den : ℕ) / den := by
    rw [div_eq_iff unit.ne', add_mul, div_mul_cancel₀ _ unit.ne']
    exact_mod_cast (Nat.div_add_mod' num den).symm
  -- The rest is half of the divisor, whichever way the quotient is rounded.
  have half : 2 * (num % den) = den := by
    have least := div_le_roundQuotient num den
    have most := roundQuotient_le num den
    obtain down | up : roundQuotient num den = num / den ∨
        roundQuotient num den = num / den + 1 := by omega
    · have rest : (2 * (num % den : ℕ) : ℚ) / den = 1 := by
        rw [down, split, sub_add_cancel_left, abs_neg, abs_of_nonneg (by positivity)] at tie
        rw [mul_div_assoc]
        exact tie
      exact_mod_cast (div_eq_one_iff_eq unit.ne').1 rest
    · have below : ((num % den : ℕ) : ℚ) / den < 1 := by
        rw [div_lt_one unit]
        exact_mod_cast Nat.mod_lt num positive
      have rest : (2 * (num % den : ℕ) : ℚ) / den = 1 := by
        rw [up, split, Nat.cast_add_one, add_sub_add_left_eq_sub,
          abs_of_nonneg (sub_nonneg.2 below.le)] at tie
        rw [mul_div_assoc]
        linarith
      exact_mod_cast (div_eq_one_iff_eq unit.ne').1 rest
  unfold roundQuotient
  dsimp only
  rw [half, if_neg (lt_irrefl _), if_neg (lt_irrefl _)]
  split <;> omega

/-- **The rounded quotient is nearest to the quotient,** ties to even. The remainder tells on which
side of the middle the quotient is. -/
theorem isNearestWhole_roundQuotient (num : ℕ) (positive : 0 < den) :
    IsNearestWhole (num / den) (roundQuotient num den) := by
  have half := two_mul_abs_roundQuotient_sub_le num positive
  refine ⟨abs_sub_le_of_half half, ?_⟩
  intro k other tie
  exact even_roundQuotient positive (two_mul_abs_sub_eq_one half other tie)

namespace IsNearestWhole

/-- Of two nearest whole numbers, the greater one is not greater. -/
theorem not_lt (h : IsNearestWhole r n) (h' : IsNearestWhole r n') : ¬ n < n' := by
  intro less
  have tie : |(n : ℚ) - r| = |(n' : ℚ) - r| := le_antisymm (h.nearest n') (h'.nearest n)
  have even := h.even n' less.ne' tie
  have even' := h'.even n less.ne tie.symm
  -- Even numbers have another one between them.
  have nearer : |((n + 1 : ℕ) : ℚ) - r| < |(n : ℚ) - r| := by
    apply abs_sub_lt_of_tie tie
    · exact_mod_cast n.lt_succ_self
    · have room : n + 1 < n' := by omega
      exact_mod_cast room
  exact (h.nearest (n + 1)).not_gt nearer

/-- **There is one nearest whole number,** so it does not matter how it is computed. -/
theorem unique (h : IsNearestWhole r n) (h' : IsNearestWhole r n') : n = n' :=
  le_antisymm (Nat.not_lt.1 (h'.not_lt h)) (Nat.not_lt.1 (h.not_lt h'))

variable {unit : ℚ}

/-- Distances, counted in units. -/
theorem abs_mul_sub (positive : 0 < unit) (n : ℕ) :
    |n * unit - r| = |n - r / unit| * unit := by
  rw [← abs_of_pos positive, ← abs_mul, abs_of_pos positive, sub_mul,
    div_mul_cancel₀ _ positive.ne']

/-- Rounding the number of units, no other multiple of the unit is nearer. The unit may be any
positive rational: a gap of a binade or a power of ten. -/
theorem abs_mul_sub_le (h : IsNearestWhole (r / unit) n) (positive : 0 < unit) (k : ℕ) :
    |n * unit - r| ≤ |k * unit - r| := by
  rw [abs_mul_sub positive, abs_mul_sub positive]
  exact mul_le_mul_of_nonneg_right (h.nearest k) positive.le

/-- Where another multiple of the unit is equally near, the number of units is even. -/
theorem even_of_tie (h : IsNearestWhole (r / unit) n) (positive : 0 < unit) (other : k ≠ n)
    (tie : |n * unit - r| = |k * unit - r|) : 2 ∣ n := by
  rw [abs_mul_sub positive, abs_mul_sub positive, mul_left_inj' positive.ne'] at tie
  exact h.even k other tie

end IsNearestWhole

end Abacus
