import Abacus.Proofs.Binary64.Shortest
import Abacus.Proofs.Decimal.Whole

/-!
# Whole numbers and their shortest decimals

Every whole number below `2 ^ 53` is a binary64 number, and above it every other one up to `2 ^ 54`.
As `10 ^ 16` lies between the two, the shortest decimal of a whole number below `10 ^ 16` is that
number: a decimal of fewer digits would be a multiple of ten, so even, and would be read as itself.

## Main statements

* `Binary64.nearestQuanta_natCast` — whole numbers that are read as themselves.
* `Binary64.toRat_shortestDecimal_eq_natCast_iff` — which shortest decimals are whole numbers.
-/

namespace Abacus.Binary64

variable {quanta n : Nat}

/-! ### Whole numbers on the grid -/

theorem toRat_mul_one (n : Nat) : toRat (n * one) = n := by
  rw [toRat, Nat.cast_mul, mul_div_cancel_right₀ _ cast_one_pos.ne']

theorem mul_one_inj {m : Nat} (h : m * one = n * one) : m = n :=
  Nat.eq_of_mul_eq_mul_right one_pos h

/-- A significand of 53 bits is on the grid, whatever its exponent. -/
theorem spacing_dvd_mul_pow {m : Nat} (h : m < 2 ^ 53) (j : Nat) :
    spacing (m * 2 ^ j) ∣ m * 2 ^ j := by
  rw [spacing, Nat.pow_eq]
  refine (Nat.pow_dvd_pow 2 ?_).trans (Nat.dvd_mul_left (2 ^ j) m)
  by_cases zero : m * 2 ^ j = 0
  · rw [zero]
    exact Nat.zero_le j
  · have less : (m * 2 ^ j).log2 < 53 + j := by
      rw [Nat.log2_lt zero, Nat.pow_add]
      exact Nat.mul_lt_mul_of_pos_right h (Nat.two_pow_pos j)
    omega

/-- Whole numbers of 53 bits, and even ones of 54, are on the grid. -/
theorem spacing_dvd_mul_one (h : n < 2 ^ 53 ∨ 2 ∣ n ∧ n < 2 ^ 54) :
    spacing (n * one) ∣ n * one := by
  obtain ⟨k, -, -, unit⟩ := exists_exactDecimal_eq 0
  rw [unit, Nat.pow_eq]
  rcases h with small | ⟨⟨m, rfl⟩, large⟩
  · exact spacing_dvd_mul_pow small k
  · rw [Nat.mul_comm 2, Nat.mul_assoc, ← Nat.pow_succ']
    exact spacing_dvd_mul_pow (by omega) (k + 1)

/-- **Whole numbers that are read as themselves.** They may be far beyond `2 ^ 53`, if enough of
their last bits are zero. -/
theorem nearestQuanta_natCast (h : n < 2 ^ 53 ∨ 2 ∣ n ∧ n < 2 ^ 54) :
    nearestQuanta n = n * one := by
  rw [← toRat_mul_one, nearestQuanta_toRat (spacing_dvd_mul_one h)]

theorem nearestQuanta_natCast_mono {m : Nat} (h : m ≤ n) :
    nearestQuanta (m : ℚ) ≤ nearestQuanta (n : ℚ) :=
  nearestQuanta_mono (Nat.cast_nonneg m) (Nat.cast_le.2 h)

/-- From `2 ^ 52` on, all numbers on the grid are whole. -/
theorem one_dvd_of_le (h : spacing quanta ∣ quanta) (large : 2 ^ 52 * one ≤ quanta) :
    one ∣ quanta := by
  obtain ⟨k, -, -, unit⟩ := exists_exactDecimal_eq 0
  rw [unit, Nat.pow_eq, ← Nat.pow_add] at large
  rw [unit, Nat.pow_eq]
  have nonzero : quanta ≠ 0 := ((Nat.two_pow_pos _).trans_le large).ne'
  have bits : 52 + k ≤ quanta.log2 := (Nat.le_log2 nonzero).2 large
  rw [spacing, Nat.pow_eq] at h
  exact (Nat.pow_dvd_pow 2 (by omega)).trans h

/-! ### Whole numbers among shortest decimals -/

/-- What is read as a whole number below `10 ^ 16` is below `10 ^ 16`. -/
theorem lt_of_reads {m : Nat} (reads : nearestQuanta (m : ℚ) = n * one) (h : n < 10 ^ 16) :
    m < 10 ^ 16 := by
  by_contra large
  have mono := nearestQuanta_natCast_mono (not_lt.1 large)
  rw [reads, nearestQuanta_natCast (.inr ⟨by decide, by decide⟩)] at mono
  exact h.not_ge (Nat.le_of_mul_le_mul_right mono one_pos)

/-- Below `10 ^ 16`, a whole number is its own shortest decimal. -/
theorem toRat_shortestDecimal_mul_one (onGrid : OnGrid (n * one)) (h : n < 10 ^ 16) :
    (shortestDecimal (n * one)).toRat = n := by
  by_cases zero : n = 0
  · subst zero
    rw [Nat.zero_mul]
    obtain ⟨e, zero⟩ := exists_shortestDecimal_zero
    rw [zero, Decimal.toRat_eq_zero_iff.2 rfl, Nat.cast_zero]
  · have shortest := isShortest_shortestDecimal onGrid
    have decade : (10 : ℚ) ^ ((Decimal.digitCount n - 1 : ℕ) : ℤ) ≤ toRat (n * one) := by
      rw [zpow_natCast, toRat_mul_one]
      exact_mod_cast Decimal.pow_digitCount_le zero
    have above := (zpow_le_toRat_shortestDecimal onGrid decade).trans_lt (Decimal.toRat_lt_zpow _)
    rw [zpow_lt_zpow_iff_right₀ (by norm_num)] at above
    have self : nearestQuanta (Decimal.mk n 0).toRat = n * one := by
      rw [Decimal.toRat_natCast, ← toRat_mul_one, nearestQuanta_toRat onGrid.2]
    have few : (Decimal.mk n 0).size ≤ Decimal.digitCount n :=
      Decimal.length_significantDigits_le Nat.length_toDigits_pos (Decimal.lt_pow_digitCount n).le
    generalize shortestDecimal (n * one) = d at shortest above
    have nonzero := shortest.significand_ne_zero (Nat.mul_ne_zero zero one_pos.ne')
    rcases (shortest.fewest _ self).eq_or_lt with same | less
    · -- The number itself has as many digits, and nothing is nearer to it.
      have near := shortest.nearest _ self same.symm
      rw [Decimal.toRat_natCast, toRat_mul_one, sub_self, abs_zero] at near
      exact sub_eq_zero.1 (abs_eq_zero.1 (le_antisymm near (abs_nonneg _)))
    · -- A multiple of ten.
      obtain ⟨m, value⟩ := Decimal.exists_toRat_eq_mul_pow (k := 1) nonzero (by omega)
      have even : 2 ∣ m * 10 ^ 1 := ⟨m * 5, by omega⟩
      have reads := shortest.reads
      rw [value] at reads ⊢
      rw [nearestQuanta_natCast (.inr ⟨even, (lt_of_reads reads h).trans (by decide)⟩)] at reads
      rw [mul_one_inj reads]

/-- Below `10 ^ 16`, a whole number is the shortest decimal of itself only. -/
theorem eq_mul_one_of_toRat_shortestDecimal (onGrid : OnGrid quanta) (h : n < 10 ^ 16)
    (value : (shortestDecimal quanta).toRat = n) : quanta = n * one := by
  have reads := nearestQuanta_shortestDecimal onGrid
  rw [value] at reads
  by_cases own : n < 2 ^ 53 ∨ 2 ∣ n ∧ n < 2 ^ 54
  · rw [← reads, nearestQuanta_natCast own]
  · -- The number is above `2 ^ 53`, so it is whole itself.
    have least := nearestQuanta_natCast_mono (by omega : 2 ^ 53 ≤ n)
    have most := nearestQuanta_natCast_mono h.le
    rw [reads, nearestQuanta_natCast (.inr ⟨by decide, by decide⟩)] at least most
    obtain ⟨m, split⟩ := one_dvd_of_le onGrid.2
      ((Nat.mul_le_mul_right one (by decide : 2 ^ 52 ≤ 2 ^ 53)).trans least)
    rw [Nat.mul_comm] at split
    rw [split] at onGrid most value ⊢
    have bound : m ≤ 10 ^ 16 := Nat.le_of_mul_le_mul_right most one_pos
    have inside : m < 10 ^ 16 := by
      refine bound.lt_of_ne fun edge => ?_
      have above : (10 : ℚ) ^ (16 : ℤ) ≤ (shortestDecimal (m * one)).toRat :=
        zpow_le_toRat_shortestDecimal onGrid (by rw [toRat_mul_one, edge]; norm_num)
      rw [value] at above
      have : 10 ^ 16 ≤ n := by exact_mod_cast above
      omega
    rw [toRat_shortestDecimal_mul_one onGrid inside, Nat.cast_inj] at value
    rw [value]

/-- **Which shortest decimals are whole numbers** below `10 ^ 16`. They are those of numbers that
are whole themselves: no other number is so near to one that its shortest decimal is. -/
theorem toRat_shortestDecimal_eq_natCast_iff (onGrid : OnGrid quanta) (h : n < 10 ^ 16) :
    (shortestDecimal quanta).toRat = n ↔ quanta = n * one := by
  refine ⟨eq_mul_one_of_toRat_shortestDecimal onGrid h, fun whole => ?_⟩
  rw [whole] at onGrid ⊢
  exact toRat_shortestDecimal_mul_one onGrid h

end Abacus.Binary64
