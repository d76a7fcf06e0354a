import Abacus.Proofs.Binary64.Value

/-!
# Rounding is monotone

A larger quotient is not rounded to a smaller number, so the rationals that are rounded to one
number form an interval. A rational that differs from a number by no more than one part in
`2 * 10 ^ 16` is rounded to that number, as it is nearer than half the gap on its side.

## Main definitions

* `Binary64.nearestQuanta` — the magnitude nearest to a rational.
* `Binary64.toRat` — the value of a magnitude.

## Main statements

* `Binary64.roundToGrid_mono`, `Binary64.nearestQuanta_mono` — rounding is monotone.
* `Binary64.ofDecimal_eq_finite_iff` — which decimals are read as a number.
* `Binary64.nearestQuanta_eq_of_near` — what is near to a number is rounded to it.
-/

namespace Abacus

/-! ### Quotients -/

theorem roundQuotient_mono_left {num num' : Nat} (h : num ≤ num') (den : Nat) :
    roundQuotient num den ≤ roundQuotient num' den := by
  rcases (Nat.div_le_div_right (c := den) h).lt_or_eq with apart | same
  · exact (roundQuotient_le num den).trans (apart.trans_le (div_le_roundQuotient num' den))
  · have rests : num % den ≤ num' % den := by
      have split := Nat.div_add_mod num den
      have split' := Nat.div_add_mod num' den
      rw [← same] at split'
      omega
    unfold roundQuotient
    rw [← same]
    dsimp only
    repeat' split
    all_goals omega

/-- **The rounded quotient is monotone.** Ties are what has to be looked at: of two equal quotients
both go the same way. -/
theorem roundQuotient_mono {num den num' den' : Nat} (h : 0 < den) (h' : 0 < den')
    (le : num * den' ≤ num' * den) : roundQuotient num den ≤ roundQuotient num' den' := by
  rw [← roundQuotient_mul_mul h' num den, ← roundQuotient_mul_mul h num' den',
    Nat.mul_comm den' den, Nat.mul_comm den', Nat.mul_comm den num']
  exact roundQuotient_mono_left le _

/-- What is less than half a unit from a whole number is rounded to it. -/
theorem roundQuotient_eq_of_close {num den n : Nat} (below : 2 * (n * den) < 2 * num + den)
    (above : 2 * num < 2 * (n * den) + den) : roundQuotient num den = n := by
  have positive : 0 < den := by omega
  obtain ⟨least, most⟩ := roundQuotient_error num positive
  generalize roundQuotient num den = m at least most
  by_contra other
  rcases Nat.lt_or_gt_of_ne other with less | more
  · have step : (m + 1) * den ≤ n * den := Nat.mul_le_mul_right den less
    rw [Nat.succ_mul] at step
    omega
  · have step : (n + 1) * den ≤ m * den := Nat.mul_le_mul_right den more
    rw [Nat.succ_mul] at step
    omega

theorem Decimal.toRat_nonneg (d : Decimal) : 0 ≤ d.toRat :=
  mul_nonneg (Nat.cast_nonneg _) (zpow_nonneg (by norm_num) _)

namespace Binary64

/-! ### Binades -/

/-- The binade of a magnitude: its gap is `2 ^ e`. The lowest binade goes down to zero, since gaps
do not get smaller there. -/
structure InBinade (e n : Nat) : Prop where
  least : 2 ^ (52 + e) ≤ n ∨ e = 0
  below : n < 2 ^ (53 + e)

theorem InBinade.spacing_eq {e n : Nat} (h : InBinade e n) : spacing n = 2 ^ e := by
  rw [spacing, Nat.pow_eq]
  congr 1
  rcases h.least with least | rfl
  · have nonzero : n ≠ 0 := ((Nat.two_pow_pos _).trans_le least).ne'
    have upper : n.log2 < 53 + e := (Nat.log2_lt nonzero).2 h.below
    have lower : 52 + e ≤ n.log2 := (Nat.le_log2 nonzero).2 least
    omega
  · by_cases zero : n = 0
    · rw [zero]
      rfl
    · have upper : n.log2 < 53 + 0 := (Nat.log2_lt zero).2 h.below
      omega

theorem exists_inBinade (n : Nat) : ∃ e, InBinade e n := by
  by_cases zero : n = 0
  · exact ⟨0, .inr rfl, by rw [zero]; exact Nat.two_pow_pos _⟩
  · refine ⟨n.log2 - 52, ?_, (Nat.log2_lt zero).1 (by omega)⟩
    by_cases small : n.log2 ≤ 52
    · exact .inr (by omega)
    · exact .inl ((Nat.le_log2 zero).1 (by omega))

variable {num den num' den' e : Nat}

theorem roundToGrid_eq (h : InBinade e (num / den)) :
    roundToGrid num den = roundQuotient num (den * 2 ^ e) * 2 ^ e := by
  rw [roundToGrid, h.spacing_eq]

/-- A quotient is not rounded beyond its binade. -/
theorem roundToGrid_le_pow (h : InBinade e (num / den)) : roundToGrid num den ≤ 2 ^ (53 + e) := by
  have scaled : num / (den * 2 ^ e) < 2 ^ 53 := by
    rw [← Nat.div_div_eq_div_mul, Nat.div_lt_iff_lt_mul (Nat.two_pow_pos e), ← Nat.pow_add]
    exact h.below
  rw [roundToGrid_eq h, Nat.pow_add]
  exact Nat.mul_le_mul_right _ ((roundQuotient_le _ _).trans scaled)

theorem pow_le_roundToGrid (h : InBinade e (num / den)) (least : 2 ^ (52 + e) ≤ num / den) :
    2 ^ (52 + e) ≤ roundToGrid num den := by
  have scaled : 2 ^ 52 ≤ num / (den * 2 ^ e) := by
    rw [← Nat.div_div_eq_div_mul, Nat.le_div_iff_mul_le (Nat.two_pow_pos e), ← Nat.pow_add]
    exact least
  rw [roundToGrid_eq h, Nat.pow_add]
  exact Nat.mul_le_mul_right _ (scaled.trans (div_le_roundQuotient _ _))

/-- **Rounding to the grid is monotone.** Quotients of one binade are rounded with one gap; between
those of two binades lies the power of two that separates them. -/
theorem roundToGrid_mono (h : 0 < den) (h' : 0 < den') (le : num * den' ≤ num' * den) :
    roundToGrid num den ≤ roundToGrid num' den' := by
  obtain ⟨e, binade⟩ := exists_inBinade (num / den)
  obtain ⟨e', binade'⟩ := exists_inBinade (num' / den')
  have floors : num / den ≤ num' / den' := by
    rw [Nat.le_div_iff_mul_le h']
    refine Nat.le_of_mul_le_mul_right ?_ h
    calc num / den * den' * den
      _ = num / den * den * den' := Nat.mul_right_comm ..
      _ ≤ num * den' := Nat.mul_le_mul_right _ (Nat.div_mul_le_self num den)
      _ ≤ num' * den := le
  rcases Nat.lt_trichotomy e e' with lower | rfl | upper
  · -- A power of two lies between the binades.
    have least : 2 ^ (52 + e') ≤ num' / den' := binade'.least.resolve_right (by omega)
    calc roundToGrid num den
      _ ≤ 2 ^ (53 + e) := roundToGrid_le_pow binade
      _ ≤ 2 ^ (52 + e') := Nat.pow_le_pow_right (by decide) (by omega)
      _ ≤ roundToGrid num' den' := pow_le_roundToGrid binade' least
  · rw [roundToGrid_eq binade, roundToGrid_eq binade']
    refine Nat.mul_le_mul_right _ (roundQuotient_mono ?_ ?_ ?_)
    · exact Nat.mul_pos h (Nat.two_pow_pos e)
    · exact Nat.mul_pos h' (Nat.two_pow_pos e)
    · rw [← Nat.mul_assoc, ← Nat.mul_assoc]
      exact Nat.mul_le_mul_right _ le
  · -- The binades are in order.
    have least : 2 ^ (52 + e) ≤ num / den := binade.least.resolve_right (by omega)
    have wide : 2 ^ (53 + e') ≤ 2 ^ (52 + e) := Nat.pow_le_pow_right (by decide) (by omega)
    exact absurd binade'.below (by omega)

/-- In its binade a quotient that is near to a magnitude on the grid is rounded to it. -/
theorem roundToGrid_eq_of_close {s : Nat} (h : InBinade e (num / den))
    (below : 2 * (s * (den * 2 ^ e)) < 2 * num + den * 2 ^ e)
    (above : 2 * num < 2 * (s * (den * 2 ^ e)) + den * 2 ^ e) :
    roundToGrid num den = s * 2 ^ e := by
  rw [roundToGrid_eq h, roundQuotient_eq_of_close below above]

/-- The binade of a quotient, told by its numerator. -/
theorem inBinade_div (h : 0 < den) (least : 2 ^ 52 * (den * 2 ^ e) ≤ num ∨ e = 0)
    (below : num < 2 ^ 53 * (den * 2 ^ e)) : InBinade e (num / den) := by
  refine ⟨least.imp_left fun least => ?_, ?_⟩
  · rw [Nat.le_div_iff_mul_le h, Nat.pow_add, Nat.mul_assoc, Nat.mul_comm (2 ^ e)]
    exact least
  · rw [Nat.div_lt_iff_lt_mul h, Nat.pow_add, Nat.mul_assoc, Nat.mul_comm (2 ^ e)]
    exact below

/-- **A quotient that differs from a magnitude on the grid by no more than one part in `2 * 10 ^ 16`
is rounded to it.** -/
theorem roundToGrid_eq_of_near {quanta : Nat} (h : 0 < den) (onGrid : spacing quanta ∣ quanta)
    (least : 2 * 10 ^ 16 * (quanta * den) ≤ 2 * 10 ^ 16 * num + quanta * den)
    (most : 2 * 10 ^ 16 * num ≤ 2 * 10 ^ 16 * (quanta * den) + quanta * den) :
    roundToGrid num den = quanta := by
  obtain ⟨e, binade⟩ := exists_inBinade quanta
  rw [binade.spacing_eq] at onGrid
  obtain ⟨s, split⟩ := onGrid
  have units : quanta * den = s * (den * 2 ^ e) := by rw [split]; ring
  have positive : 0 < den * 2 ^ e := Nat.mul_pos h (Nat.two_pow_pos e)
  have upper : s < 2 ^ 53 := by
    have below := binade.below
    rw [split, Nat.pow_add, Nat.mul_comm] at below
    exact Nat.lt_of_mul_lt_mul_right below
  have lower : 2 ^ 52 ≤ s ∨ e = 0 := by
    refine binade.least.imp_left fun least => ?_
    rw [split, Nat.pow_add, Nat.mul_comm (2 ^ e)] at least
    exact Nat.le_of_mul_le_mul_right least (Nat.two_pow_pos e)
  rw [units] at least most
  rw [split, Nat.mul_comm (2 ^ e)]
  have step : s * (den * 2 ^ e) + den * 2 ^ e ≤ 2 ^ 53 * (den * 2 ^ e) := by
    rw [← Nat.succ_mul]
    exact Nat.mul_le_mul_right _ upper
  by_cases inside : s * (den * 2 ^ e) ≤ num ∨ 2 ^ 52 < s ∨ e = 0
  · -- The quotient is in the binade of the magnitude.
    refine roundToGrid_eq_of_close (inBinade_div h ?_ ?_) ?_ ?_
    · rcases lower with lower | zero
      · have scaled := Nat.mul_le_mul_right (den * 2 ^ e) lower
        rcases inside with above | more | zero
        · exact .inl (scaled.trans above)
        · have scaled' := Nat.mul_le_mul_right (den * 2 ^ e) more
          rw [Nat.succ_mul] at scaled'
          exact .inl (by omega)
        · exact .inr zero
      · exact .inr zero
    · omega
    · omega
    · omega
  · -- The magnitude is a power of two, and the quotient is below it, where the gaps are half as
    -- wide.
    simp only [not_or, not_le, not_lt] at inside
    obtain ⟨less, few, nonzero⟩ := inside
    obtain rfl : s = 2 ^ 52 := le_antisymm few (lower.resolve_right nonzero)
    obtain ⟨k, rfl⟩ : ∃ k, e = k + 1 := Nat.exists_eq_succ_of_ne_zero nonzero
    have half : den * 2 ^ (k + 1) = 2 * (den * 2 ^ k) := by ring
    have power : 2 ^ 52 * 2 ^ (k + 1) = 2 ^ 53 * 2 ^ k := by ring
    rw [half] at least most less
    rw [power]
    refine roundToGrid_eq_of_close (inBinade_div h (.inl ?_) ?_) ?_ ?_
    · omega
    · omega
    · omega
    · omega

/-! ### Rationals -/

/-- The magnitude nearest to a rational that is not negative, in quanta. It may be the limit or
more, where a number is infinite. -/
def nearestQuanta (r : ℚ) : Nat := roundToGrid (r.num.natAbs * one) r.den

theorem natAbs_num_div_den {r : ℚ} (h : 0 ≤ r) : (r.num.natAbs : ℚ) / r.den = r := by
  have same : (r.num.natAbs : ℚ) = r.num := by
    rw [← Int.cast_natCast, Int.natAbs_of_nonneg (Rat.num_nonneg.2 h)]
  rw [same, Rat.num_div_den]

/-- Rationals in order have their quotients in order. -/
theorem mul_le_mul_of_div_le (h : 0 < den) (h' : 0 < den')
    (le : (num : ℚ) / den ≤ (num' : ℚ) / den') : num * den' ≤ num' * den := by
  rw [div_le_div_iff₀ (by exact_mod_cast h) (by exact_mod_cast h')] at le
  exact_mod_cast le

theorem nearestQuanta_div (h : 0 < den) :
    nearestQuanta ((num : ℚ) / den) = roundToGrid (num * one) den := by
  generalize split : (num : ℚ) / den = r
  have nonneg : 0 ≤ r := split ▸ by positivity
  have same : (r.num.natAbs : ℚ) / r.den = (num : ℚ) / den := by
    rw [natAbs_num_div_den nonneg, split]
  have le := mul_le_mul_of_div_le r.den_pos h same.le
  have ge := mul_le_mul_of_div_le h r.den_pos same.ge
  refine le_antisymm (roundToGrid_mono r.den_pos h ?_) (roundToGrid_mono h r.den_pos ?_)
  · rw [Nat.mul_right_comm, Nat.mul_right_comm num]
    exact Nat.mul_le_mul_right one le
  · rw [Nat.mul_right_comm, Nat.mul_right_comm r.num.natAbs]
    exact Nat.mul_le_mul_right one ge

/-- **A larger rational is not rounded to a smaller number.** Inside a binade this is a matter of
quotients; between binades there is a power of two, which is rounded to itself. -/
theorem nearestQuanta_mono {r r' : ℚ} (nonneg : 0 ≤ r) (h : r ≤ r') :
    nearestQuanta r ≤ nearestQuanta r' := by
  refine roundToGrid_mono r.den_pos r'.den_pos ?_
  rw [Nat.mul_right_comm, Nat.mul_right_comm r'.num.natAbs]
  refine Nat.mul_le_mul_right one (mul_le_mul_of_div_le r.den_pos r'.den_pos ?_)
  rwa [natAbs_num_div_den nonneg, natAbs_num_div_den (nonneg.trans h)]

/-- The value of a magnitude in quanta. It is exact, and strictly monotone, so magnitudes are
compared as rationals. -/
def toRat (quanta : Nat) : ℚ := (quanta : ℚ) / one

variable {quanta : Nat}

theorem cast_one_pos : (0 : ℚ) < one := by exact_mod_cast one_pos

theorem toRat_nonneg (quanta : Nat) : 0 ≤ toRat quanta :=
  div_nonneg (Nat.cast_nonneg _) cast_one_pos.le

theorem toRat_le_toRat_iff {quanta' : Nat} : toRat quanta ≤ toRat quanta' ↔ quanta ≤ quanta' := by
  rw [toRat, toRat, div_le_div_iff_of_pos_right cast_one_pos, Nat.cast_le]

/-- A number on the grid is nearest to its value. -/
theorem nearestQuanta_toRat (h : spacing quanta ∣ quanta) :
    nearestQuanta (toRat quanta) = quanta := by
  rw [toRat, nearestQuanta_div one_pos, roundToGrid_mul_self one_pos h]

@[simp]
theorem toRat_zero : toRat 0 = 0 := by
  rw [toRat, Nat.cast_zero, zero_div]

theorem nearestQuanta_zero : nearestQuanta 0 = 0 := by
  have self := nearestQuanta_toRat onGrid_zero.2
  rwa [toRat_zero] at self

/-- **A rational that differs from a number by no more than one part in `2 * 10 ^ 16` is rounded to
it.** -/
theorem nearestQuanta_eq_of_near {r : ℚ} (nonneg : 0 ≤ r) (h : spacing quanta ∣ quanta)
    (near : 2 * 10 ^ 16 * |r - toRat quanta| ≤ toRat quanta) : nearestQuanta r = quanta := by
  have den : (0 : ℚ) < r.den := by exact_mod_cast r.den_pos
  have width : (0 : ℚ) < r.den * one := mul_pos den cast_one_pos
  have numerator : (r.num.natAbs * one : ℚ) = r * (r.den * one) := by
    have whole : (r.num.natAbs : ℚ) = r * r.den :=
      (div_eq_iff den.ne').1 (natAbs_num_div_den nonneg)
    rw [whole, mul_assoc]
  have magnitude : (quanta * r.den : ℚ) = toRat quanta * (r.den * one) := by
    rw [toRat, mul_comm (r.den : ℚ), ← mul_assoc, div_mul_cancel₀ _ cast_one_pos.ne']
  obtain ⟨least, most⟩ := abs_le.1 (le_refl |r - toRat quanta|)
  refine roundToGrid_eq_of_near r.den_pos h ?_ ?_
  · have below : 2 * 10 ^ 16 * toRat quanta ≤ 2 * 10 ^ 16 * r + toRat quanta := by linarith
    have scaled : (2 * 10 ^ 16 * (quanta * r.den) : ℚ) ≤
        2 * 10 ^ 16 * (r.num.natAbs * one) + quanta * r.den := by
      rw [numerator, magnitude]
      linarith [mul_le_mul_of_nonneg_right below width.le]
    exact_mod_cast scaled
  · have above : 2 * 10 ^ 16 * r ≤ 2 * 10 ^ 16 * toRat quanta + toRat quanta := by linarith
    have scaled : (2 * 10 ^ 16 * (r.num.natAbs * one) : ℚ) ≤
        2 * 10 ^ 16 * (quanta * r.den) + quanta * r.den := by
      rw [numerator, magnitude]
      linarith [mul_le_mul_of_nonneg_right above width.le]
    exact_mod_cast scaled

/-- **Which decimals are read as a number:** those whose value rounds to its magnitude. -/
theorem ofDecimal_eq_finite_iff {negative : Bool} {d : Decimal} {h : OnGrid quanta} :
    ofDecimal negative d = finite negative quanta h ↔ nearestQuanta d.toRat = quanta := by
  rw [ofDecimal_eq_nearest negative (fraction_den_pos d) (toRat_eq_div d), toRat_eq_div,
    nearestQuanta_div (fraction_den_pos d), nearest, round]
  split
  · constructor
    · intro same
      cases same
      rfl
    · rintro rfl
      rfl
  · next large =>
      refine iff_of_false (by simp) ?_
      rintro rfl
      exact large h.1

end Binary64

end Abacus
