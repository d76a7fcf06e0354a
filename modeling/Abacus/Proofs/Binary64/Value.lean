import Mathlib
import Abacus.Binary64.Decimal

/-!
# Rounding and values

The number that a decimal is read as depends on the value of the decimal only, not on how many
zeros its significand ends in, and the bounds beyond which decimals are not computed exactly agree
with rounding.

## Main definitions

* `Decimal.toRat` — the value of a decimal.

## Main statements

* `Binary64.ofDecimal_eq_nearest` — a decimal is read as the number nearest to its value.
* `Binary64.ofDecimal_congr` — decimals of one value are read as one number.
-/

namespace Abacus

/-- Scaling both sides of a quotient does not change how it is rounded. -/
theorem roundQuotient_mul_mul {k : Nat} (h : 0 < k) (num den : Nat) :
    roundQuotient (k * num) (k * den) = roundQuotient num den := by
  have less : 2 * (k * (num % den)) < k * den ↔ 2 * (num % den) < den := by
    rw [Nat.mul_left_comm]
    exact Nat.mul_lt_mul_left h
  have more : k * den < 2 * (k * (num % den)) ↔ den < 2 * (num % den) := by
    rw [Nat.mul_left_comm]
    exact Nat.mul_lt_mul_left h
  simp only [roundQuotient, Nat.mul_div_mul_left num den h, Nat.mul_mod_mul_left, less, more]

/-- The value of a decimal. It is exact; decimals with different significands may have one value. -/
def Decimal.toRat (d : Decimal) : ℚ := d.significand * 10 ^ d.exponent

namespace Binary64

/-! ### Quotients -/

theorem roundToGrid_mul_mul {k : Nat} (h : 0 < k) (num den : Nat) :
    roundToGrid (k * num) (k * den) = roundToGrid num den := by
  simp only [roundToGrid, Nat.mul_div_mul_left num den h, Nat.mul_assoc,
    roundQuotient_mul_mul h]

/-- A quotient may be scaled. -/
theorem nearest_mul_mul (negative : Bool) {k : Nat} (h : 0 < k) (num den : Nat) :
    nearest negative (k * num) (k * den) = nearest negative num den := by
  simp only [nearest, round, Nat.mul_assoc, roundToGrid_mul_mul h]

/-- Equal quotients have the same nearest number. -/
theorem nearest_congr (negative : Bool) {num den num' den' : Nat} (h : 0 < den) (h' : 0 < den')
    (same : num * den' = num' * den) : nearest negative num den = nearest negative num' den' := by
  rw [← nearest_mul_mul negative h' num den, ← nearest_mul_mul negative h num' den',
    Nat.mul_comm den' num, Nat.mul_comm den num', Nat.mul_comm den' den, same]

/-! ### The ends of the grid -/

theorem le_log2_of_pow_le {k n : Nat} (nonzero : n ≠ 0) (h : Nat.pow 2 k ≤ n) : k ≤ n.log2 :=
  (Nat.le_log2 nonzero).2 h

/-- A quotient of the limit or more is not rounded below the limit. -/
theorem limit_le_roundToGrid {num den : Nat} (h : limit ≤ num / den) :
    limit ≤ roundToGrid num den := by
  have nonzero : num / den ≠ 0 := (Nat.lt_of_lt_of_le limit_pos h).ne'
  have below : 2 ^ (num / den).log2 ≤ num / den := Nat.log2_self_le nonzero
  have large : 52 ≤ (num / den).log2 ∧ limit ≤ Nat.pow 2 (num / den).log2 := by
    unfold limit at h ⊢
    generalize hk : 2098 = k at h ⊢
    have exponent : k ≤ (num / den).log2 := le_log2_of_pow_le nonzero h
    exact ⟨by omega, Nat.pow_le_pow_right (by decide) exponent⟩
  unfold roundToGrid spacing
  dsimp only
  generalize (num / den).log2 = e at *
  have split : 2 ^ e = 2 ^ 52 * 2 ^ (e - 52) := by rw [← Nat.pow_add]; congr 1; omega
  rw [Nat.pow_eq]
  calc limit
    _ ≤ 2 ^ e := large.2
    _ = 2 ^ 52 * 2 ^ (e - 52) := split
    _ ≤ num / (den * 2 ^ (e - 52)) * 2 ^ (e - 52) := by
        refine Nat.mul_le_mul_right _ ?_
        rw [← Nat.div_div_eq_div_mul, Nat.le_div_iff_mul_le (Nat.two_pow_pos _), ← split]
        exact below
    _ ≤ roundQuotient num (den * 2 ^ (e - 52)) * 2 ^ (e - 52) :=
        Nat.mul_le_mul_right _ (div_le_roundQuotient ..)

/-- Beyond the limit every number is infinite. -/
theorem nearest_eq_infinite (negative : Bool) {num den : Nat} (h : limit ≤ num * one / den) :
    nearest negative num den = infinite negative := by
  rw [nearest, round, dif_neg (Nat.not_lt.2 (limit_le_roundToGrid h))]

/-- A quotient of less than half a quantum is rounded to zero. -/
theorem roundToGrid_of_two_mul_lt {num den : Nat} (h : 2 * num < den) :
    roundToGrid num den = 0 := by
  have floor : num / den = 0 := Nat.div_eq_of_lt (by omega)
  have rest : num % den = num := Nat.mod_eq_of_lt (by omega)
  simp [roundToGrid, roundQuotient, floor, rest, h, spacing]

theorem nearest_zero (negative : Bool) (den : Nat) : nearest negative 0 den = zero negative := by
  have nothing : roundToGrid 0 den = 0 := by
    simp [roundToGrid, roundQuotient]
  simp [nearest, round, nothing, limit_pos, zero]

/-! ### Decimals -/

/-- The quotient of natural numbers that a decimal is. This is what rounding divides; it is not
reduced. -/
def fraction (d : Decimal) : Nat × Nat :=
  if 0 ≤ d.exponent then (d.significand * Nat.pow 10 d.exponent.toNat, 1)
  else (d.significand, Nat.pow 10 (-d.exponent).toNat)

theorem fraction_den_pos (d : Decimal) : 0 < (fraction d).2 := by
  unfold fraction
  split
  · exact Nat.one_pos
  · exact Nat.pow_pos (by decide)

theorem toRat_eq_div (d : Decimal) :
    d.toRat = ((fraction d).1 : ℚ) / ((fraction d).2 : ℚ) := by
  obtain ⟨m, e⟩ := d
  unfold fraction Decimal.toRat
  cases e with
  | ofNat n => simp
  | negSucc n => simp [zpow_negSucc, div_eq_mul_inv]

/-- Where a decimal is known to be infinite, rounding says so too. -/
theorem nearest_of_lt_exponent (negative : Bool) {d : Decimal} (h : d.significand ≠ 0)
    (large : 400 < d.exponent) :
    nearest negative (fraction d).1 (fraction d).2 = infinite negative := by
  have beyond : limit ≤ (fraction d).1 * one / (fraction d).2 := by
    obtain ⟨k, hk, enough⟩ : ∃ k, k ≤ 400 ∧ limit ≤ Nat.pow 10 k * one :=
      ⟨400, Nat.le_refl 400, by decide +kernel⟩
    have bound : Nat.pow 10 k ≤ d.significand * Nat.pow 10 d.exponent.toNat :=
      (Nat.pow_le_pow_right (by decide) (by omega)).trans
        (Nat.le_mul_of_pos_left _ (Nat.pos_of_ne_zero h))
    rw [fraction, if_pos (by omega), Nat.div_one]
    exact enough.trans (Nat.mul_le_mul_right one bound)
  exact nearest_eq_infinite negative beyond

/-- As 8 is less than 10, a significand of few bits is small beside a power of ten. -/
theorem two_mul_mul_pow_lt {m k places : Nat} (h : m.log2 + k + 2 ≤ 3 * places) :
    2 * (m * Nat.pow 2 k) < Nat.pow 10 places := by
  have bound : m < 2 ^ (m.log2 + 1) := Nat.lt_log2_self
  rw [Nat.pow_eq, Nat.pow_eq]
  calc 2 * (m * 2 ^ k)
    _ < 2 * (2 ^ (m.log2 + 1) * 2 ^ k) := by gcongr
    _ = 2 ^ (m.log2 + 1 + k + 1) := by rw [← Nat.pow_add, ← Nat.pow_succ']
    _ ≤ 2 ^ (3 * places) := Nat.pow_le_pow_right (by decide) (by omega)
    _ = 8 ^ places := by rw [Nat.pow_mul]
    _ ≤ 10 ^ places := Nat.pow_le_pow_left (by decide) places

/-- Where a decimal is known to be zero, rounding says so too. -/
theorem nearest_of_exponent_lt (negative : Bool) {d : Decimal}
    (small : 3 * d.exponent + d.significand.log2 < -1200) :
    nearest negative (fraction d).1 (fraction d).2 = zero negative := by
  have below : 2 * ((fraction d).1 * one) < (fraction d).2 := by
    rw [fraction, if_neg (by omega)]
    unfold one
    generalize hk : 1074 = k
    refine two_mul_mul_pow_lt ?_
    dsimp only
    omega
  have nothing := roundToGrid_of_two_mul_lt below
  simp [nearest, round, nothing, limit_pos, zero]

/-- **A decimal is read as the number nearest to its value,** also where reading takes a short cut
because the decimal is far too large or far too small. -/
theorem ofDecimal_eq_nearest (negative : Bool) {d : Decimal} {num den : Nat} (h : 0 < den)
    (value : d.toRat = (num : ℚ) / den) : ofDecimal negative d = nearest negative num den := by
  have same : (fraction d).1 * den = num * (fraction d).2 := by
    have quotients := (toRat_eq_div d).symm.trans value
    rw [div_eq_div_iff (by exact_mod_cast (fraction_den_pos d).ne') (by exact_mod_cast h.ne')]
      at quotients
    exact_mod_cast quotients
  rw [← nearest_congr negative (fraction_den_pos d) h same]
  unfold ofDecimal
  by_cases nothing : d.significand = 0
  · have numerator : (fraction d).1 = 0 := by
      unfold fraction
      split <;> simp [nothing]
    rw [if_pos nothing, numerator, nearest_zero]
  · rw [if_neg nothing]
    split
    · next large => exact (nearest_of_lt_exponent negative nothing large).symm
    split
    · next small => exact (nearest_of_exponent_lt negative small).symm
    · unfold fraction
      split <;> rfl

/-- Decimals of one value are read as one number. So zeros at the ends of a numeral do not
matter. -/
theorem ofDecimal_congr (negative : Bool) {d d' : Decimal} (h : d.toRat = d'.toRat) :
    ofDecimal negative d = ofDecimal negative d' := by
  rw [ofDecimal_eq_nearest negative (fraction_den_pos d') (h.trans (toRat_eq_div d')),
    ofDecimal_eq_nearest negative (fraction_den_pos d') (toRat_eq_div d')]

end Binary64

end Abacus
