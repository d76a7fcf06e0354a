import Abacus.Proofs.Binary64.Whole
import Abacus.Proofs.Rounding.Nearest

/-!
# The nearest number

A rational that is not negative is rounded to the finite number nearest to it, and of two that are
equally near to the one with an even significand. The reason is that in the binade of the rational
the grid is the multiples of one unit, and what is on the grid outside lies beyond such a multiple.
From `2 ^ 1024 - 2 ^ 970` on, half-way between the largest number and the next power of two, there
is no number to round to.

## Main definitions

* `Binary64.rat?` — the rational that a finite number is.
* `Binary64.IsNearest` — the number is nearest to a rational, ties to even.

## Main statements

* `Binary64.exists_nearestQuanta_eq` — rounding in the binade of a rational.
* `Binary64.isNearest_iff` — which number is nearest.
* `Binary64.nearestQuanta_lt_limit_iff` — which rationals are rounded to a finite number.
-/

namespace Abacus.Binary64

variable {quanta n m s e : ℕ} {r : ℚ}

/-- The rational that a finite number is. Both zeros are the same one. -/
def rat? : Binary64 → Option ℚ
  | finite negative quanta _ => some (if negative then -toRat quanta else toRat quanta)
  | _ => none

/-- The significand, which is the magnitude counted in gaps of its binade, is even. Of two
neighbours just one is of this kind, so it decides ties. -/
def HasEvenSignificand : Binary64 → Prop
  | finite _ quanta _ => 2 * spacing quanta ∣ quanta
  | _ => False

/-- No finite number is nearer to a rational, and if another one is equally near, the significand is
even. -/
structure IsNearest (r : ℚ) (x : Binary64) : Prop where
  nearest : ∃ v ∈ x.rat?, ∀ (y : Binary64), ∀ w ∈ y.rat?, |v - r| ≤ |w - r|
  even : ∀ v ∈ x.rat?, ∀ (y : Binary64), ∀ w ∈ y.rat?, w ≠ v → |v - r| = |w - r| →
    x.HasEvenSignificand

/-! ### In the binade of a rational -/

theorem toRat_mul (s k : ℕ) : toRat (s * k) = s * toRat k := by
  rw [toRat, toRat, Nat.cast_mul, mul_div_assoc]

theorem toRat_pos (h : 0 < quanta) : 0 < toRat quanta := div_pos (Nat.cast_pos.2 h) cast_one_pos

theorem toRat_lt_toRat_iff : toRat m < toRat n ↔ m < n := by
  rw [← not_le, ← not_le, toRat_le_toRat_iff]

theorem toRat_inj : toRat m = toRat n ↔ m = n := by
  simp only [le_antisymm_iff, toRat_le_toRat_iff]

/-- **Rounding in the binade of a rational:** the significand is the nearest number of gaps. What is
nearest among all numbers is settled from here, since a lower binade is farther away. -/
theorem exists_nearestQuanta_eq (nonneg : 0 ≤ r) :
    ∃ e s, nearestQuanta r = s * 2 ^ e ∧ s ≤ 2 ^ 53 ∧ IsNearestWhole (r / toRat (2 ^ e)) s ∧
      (toRat (2 ^ (52 + e)) ≤ r ∨ e = 0) := by
  obtain ⟨e, binade⟩ := exists_inBinade (r.num.natAbs * one / r.den)
  have value := roundToGrid_eq binade
  have most := roundToGrid_le_pow binade
  have den : (0 : ℚ) < r.den := Nat.cast_pos.2 r.den_pos
  refine ⟨e, _, value, ?_, ?_, binade.least.imp_left fun least => ?_⟩
  · rw [value, Nat.pow_add] at most
    exact Nat.le_of_mul_le_mul_right most (Nat.two_pow_pos e)
  · have gaps : r / toRat (2 ^ e) =
        ((r.num.natAbs * one : ℕ) : ℚ) / ((r.den * 2 ^ e : ℕ) : ℚ) := by
      have unit := cast_one_pos
      conv_lhs => rw [← natAbs_num_div_den nonneg, toRat]
      push_cast
      field_simp
    rw [gaps]
    exact isNearestWhole_roundQuotient _ (Nat.mul_pos r.den_pos (Nat.two_pow_pos e))
  · rw [Nat.le_div_iff_mul_le r.den_pos] at least
    rw [toRat, div_le_iff₀ cast_one_pos, ← mul_le_mul_iff_left₀ den]
    have whole : (r.num.natAbs : ℚ) = r * r.den :=
      (div_eq_iff den.ne').1 (natAbs_num_div_den nonneg)
    calc ((2 ^ (52 + e) : ℕ) : ℚ) * r.den
      _ ≤ ((r.num.natAbs * one : ℕ) : ℚ) := by exact_mod_cast least
      _ = r * one * r.den := by rw [Nat.cast_mul, whole]; ring

/-- From a power of two on, what is on the grid is a multiple of the gap there. -/
theorem pow_dvd_of_le (onGrid : spacing m ∣ m) (large : 2 ^ (52 + e) ≤ m) : 2 ^ e ∣ m := by
  have nonzero : m ≠ 0 := ((Nat.two_pow_pos _).trans_le large).ne'
  have bits : 52 + e ≤ m.log2 := (Nat.le_log2 nonzero).2 large
  rw [spacing, Nat.pow_eq] at onGrid
  exact (Nat.pow_dvd_pow 2 (by omega)).trans onGrid

/-- Between a number on the grid and a rational there is a multiple of the gap at the rational. -/
theorem exists_between_mul_pow (least : toRat (2 ^ (52 + e)) ≤ r ∨ e = 0)
    (onGrid : spacing m ∣ m) : ∃ k : ℕ, Between (toRat m) (k * toRat (2 ^ e)) r := by
  by_cases multiple : 2 ^ e ∣ m
  · obtain ⟨k, rfl⟩ := multiple
    refine ⟨k, ?_⟩
    rw [Nat.mul_comm, toRat_mul]
    exact (le_total _ r).imp (fun below => ⟨le_rfl, below⟩) (fun above => ⟨above, le_rfl⟩)
  · -- The number is below the binade of the rational.
    have small : m < 2 ^ (52 + e) := by
      by_contra large
      exact multiple (pow_dvd_of_le onGrid (not_lt.1 large))
    have nonzero : e ≠ 0 := by
      rintro rfl
      exact multiple (one_dvd m)
    refine ⟨2 ^ 52, .inl ?_⟩
    rw [← toRat_mul, ← Nat.pow_add]
    exact ⟨toRat_le_toRat_iff.2 small.le, least.resolve_right nonzero⟩

/-- An even number of gaps of a binade is an even significand. -/
theorem two_mul_spacing_dvd (most : s ≤ 2 ^ 53) (even : 2 ∣ s) :
    2 * spacing (s * 2 ^ e) ∣ s * 2 ^ e := by
  rcases most.lt_or_eq with less | rfl
  · have narrow : spacing (s * 2 ^ e) ∣ 2 ^ e := by
      rw [spacing, Nat.pow_eq]
      apply Nat.pow_dvd_pow
      by_cases zero : s * 2 ^ e = 0
      · rw [zero]
        exact Nat.zero_le e
      · have bits : (s * 2 ^ e).log2 < 53 + e := by
          rw [Nat.log2_lt zero, Nat.pow_add]
          exact Nat.mul_lt_mul_of_pos_right less (Nat.two_pow_pos e)
        omega
    exact Nat.mul_dvd_mul even narrow
  · rw [spacing, ← Nat.pow_add, Nat.log2_two_pow, Nat.pow_eq, ← Nat.pow_succ']
    exact Nat.pow_dvd_pow 2 (by omega)

/-! ### Nearest magnitudes -/

/-- **No magnitude on the grid is nearer** than the one that a rational is rounded to. Magnitudes of
other binades are farther away than the ends of its own. -/
theorem abs_nearestQuanta_sub_le (nonneg : 0 ≤ r) (onGrid : spacing m ∣ m) :
    |toRat (nearestQuanta r) - r| ≤ |toRat m - r| := by
  obtain ⟨e, s, value, -, gaps, least⟩ := exists_nearestQuanta_eq nonneg
  obtain ⟨k, between⟩ := exists_between_mul_pow least onGrid
  rw [value, toRat_mul]
  exact (gaps.abs_mul_sub_le (toRat_pos (Nat.two_pow_pos e)) k).trans between.abs_sub_le

/-- **Where another magnitude is equally near,** a rational is rounded to an even significand. The
other magnitude may be in the next binade, so its gap may be a different one. -/
theorem two_mul_spacing_dvd_nearestQuanta (nonneg : 0 ≤ r) (onGrid : spacing m ∣ m)
    (other : m ≠ nearestQuanta r) (tie : |toRat (nearestQuanta r) - r| = |toRat m - r|) :
    2 * spacing (nearestQuanta r) ∣ nearestQuanta r := by
  obtain ⟨e, s, value, most, gaps, least⟩ := exists_nearestQuanta_eq nonneg
  obtain ⟨k, between⟩ := exists_between_mul_pow least onGrid
  have unit := toRat_pos (Nat.two_pow_pos e)
  rw [value, toRat_mul] at tie
  have same : toRat m = k * toRat (2 ^ e) :=
    between.eq_of_abs_sub_le (tie.symm.le.trans (gaps.abs_mul_sub_le unit k))
  have apart : k ≠ s := by
    rintro rfl
    rw [← toRat_mul, toRat_inj] at same
    exact other (same.trans value.symm)
  rw [same] at tie
  rw [value]
  exact two_mul_spacing_dvd most (gaps.even_of_tie unit apart tie)

/-- The next magnitude on the grid. -/
theorem spacing_dvd_add_spacing (onGrid : spacing n ∣ n) :
    spacing (n + spacing n) ∣ n + spacing n := by
  obtain ⟨e, binade⟩ := exists_inBinade n
  have gap := binade.spacing_eq
  have below := binade.below
  rw [gap] at onGrid ⊢
  obtain ⟨k, rfl⟩ := onGrid
  rw [Nat.pow_add, Nat.mul_comm] at below
  have few : k + 1 ≤ 2 ^ 53 := Nat.lt_of_mul_lt_mul_right below
  rw [← Nat.mul_succ, Nat.mul_comm]
  rcases few.lt_or_eq with less | same
  · exact spacing_dvd_mul_pow less e
  · rw [Nat.succ_eq_add_one, same, ← Nat.pow_add, ← Nat.one_mul (2 ^ (53 + e))]
    exact spacing_dvd_mul_pow (by decide) _

theorem spacing_dvd_spacing (le : m ≤ n) : spacing m ∣ spacing n := by
  rw [spacing, spacing, Nat.pow_eq, Nat.pow_eq]
  apply Nat.pow_dvd_pow
  have bits : m.log2 ≤ n.log2 := by
    by_cases zero : m = 0
    · rw [zero]
      exact Nat.zero_le _
    · rw [Nat.le_log2 (by omega)]
      exact (Nat.log2_self_le zero).trans le
  omega

/-- Two magnitudes on the grid that are both nearest and have even significands are one. -/
theorem not_lt_of_even (onGrid : OnGrid m) (onGrid' : OnGrid n)
    (nearest : ∀ k, OnGrid k → |toRat m - r| ≤ |toRat k - r|)
    (tie : |toRat m - r| = |toRat n - r|) (even : 2 * spacing m ∣ m) (even' : 2 * spacing n ∣ n) :
    ¬ m < n := by
  intro less
  have wide : spacing m ∣ spacing n := spacing_dvd_spacing less.le
  obtain ⟨gaps, split⟩ := (Nat.dvd_sub (wide.trans onGrid'.2) onGrid.2 : spacing m ∣ n - m)
  have step : m + spacing m ≤ n := by
    have some : 0 < gaps := by
      apply Nat.pos_of_ne_zero
      rintro rfl
      omega
    have := Nat.le_mul_of_pos_right (spacing m) some
    omega
  rcases step.lt_or_eq with inside | next
  · -- The next magnitude is nearer.
    have between : OnGrid (m + spacing m) :=
      ⟨inside.trans onGrid'.1, spacing_dvd_add_spacing onGrid.2⟩
    refine (nearest _ between).not_gt (abs_sub_lt_of_tie tie ?_ ?_)
    · exact toRat_lt_toRat_iff.2 (Nat.lt_add_of_pos_right (spacing_pos m))
    · exact toRat_lt_toRat_iff.2 inside
  · -- Neighbours are not both even.
    have odd : 2 * spacing m ∣ spacing m := by
      rw [← Nat.dvd_add_right even, next]
      exact (Nat.mul_dvd_mul_left 2 wide).trans even'
    exact (Nat.le_of_dvd (spacing_pos m) odd).not_gt
      (lt_mul_of_one_lt_left (spacing_pos m) (by decide))

/-! ### Nearest numbers -/

theorem mem_rat?_finite {negative : Bool} {onGrid : OnGrid quanta} {v : ℚ} :
    v ∈ (finite negative quanta onGrid).rat? ↔
      (if negative then -toRat quanta else toRat quanta) = v :=
  Option.some_inj

theorem mem_rat?_finite_false {onGrid : OnGrid quanta} {v : ℚ} :
    v ∈ (finite false quanta onGrid).rat? ↔ toRat quanta = v :=
  Option.some_inj

/-- The magnitude of a number is no farther from a rational that is not negative. -/
theorem exists_abs_sub_le_of_mem_rat? (nonneg : 0 ≤ r) {y : Binary64} {w : ℚ} (h : w ∈ y.rat?) :
    ∃ m, OnGrid m ∧ |toRat m - r| ≤ |w - r| ∧ (|toRat m - r| = |w - r| → toRat m = w ∨ r = 0) := by
  cases y with
  | nan => cases h
  | infinite => cases h
  | finite negative m onGrid =>
      rw [mem_rat?_finite] at h
      refine ⟨m, onGrid, ?_⟩
      have magnitude := toRat_nonneg m
      cases negative with
      | false =>
          obtain rfl : toRat m = w := h
          exact ⟨le_rfl, fun _ => .inl rfl⟩
      | true =>
          obtain rfl : -toRat m = w := h
          rw [abs_of_nonpos (by linarith : -toRat m - r ≤ 0)]
          constructor
          · rw [abs_le]
            constructor <;> linarith
          · intro tie
            rcases abs_choice (toRat m - r) with same | opposite
            · right
              linarith
            · left
              linarith

/-- **Which number is nearest.** A rational below the range has the number that it is rounded to,
up to the sign of zero. -/
theorem isNearest_iff (nonneg : 0 ≤ r) (small : nearestQuanta r < limit) {onGrid : OnGrid quanta} :
    IsNearest r (finite false quanta onGrid) ↔ nearestQuanta r = quanta := by
  have grid : OnGrid (nearestQuanta r) := ⟨small, spacing_dvd_roundToGrid _ _⟩
  constructor
  · intro h
    obtain ⟨v, member, nearest⟩ := h.nearest
    obtain rfl := mem_rat?_finite_false.1 member
    have closest (k : ℕ) (onGrid : OnGrid k) : |toRat quanta - r| ≤ |toRat k - r| :=
      nearest (finite false k onGrid) _ (mem_rat?_finite_false.2 rfl)
    have tie : |toRat (nearestQuanta r) - r| = |toRat quanta - r| :=
      le_antisymm (abs_nearestQuanta_sub_le nonneg onGrid.2) (closest _ grid)
    by_contra other
    have even : 2 * spacing quanta ∣ quanta :=
      h.even _ member (finite false _ grid) _ (mem_rat?_finite_false.2 rfl)
        (fun same => other (toRat_inj.1 same)) tie.symm
    have even' := two_mul_spacing_dvd_nearestQuanta nonneg onGrid.2 (Ne.symm other) tie
    rcases Nat.lt_or_gt_of_ne other with less | more
    · exact not_lt_of_even grid onGrid (fun k g => abs_nearestQuanta_sub_le nonneg g.2) tie even'
        even less
    · exact not_lt_of_even onGrid grid closest tie.symm even even' more
  · rintro rfl
    refine ⟨⟨_, mem_rat?_finite_false.2 rfl, ?_⟩, ?_⟩
    · intro y w member
      obtain ⟨m, onGrid', le, -⟩ := exists_abs_sub_le_of_mem_rat? nonneg member
      exact (abs_nearestQuanta_sub_le nonneg onGrid'.2).trans le
    · intro v member y w member' other tie
      obtain rfl := mem_rat?_finite_false.1 member
      obtain ⟨m, onGrid', le, alike⟩ := exists_abs_sub_le_of_mem_rat? nonneg member'
      have closest := abs_nearestQuanta_sub_le nonneg onGrid'.2
      rcases alike (le_antisymm le (tie ▸ closest)) with same | zero
      · rw [← same] at other tie
        exact two_mul_spacing_dvd_nearestQuanta nonneg onGrid'.2
          (fun same => other (toRat_inj.2 same)) tie
      · -- Nothing else is as near to zero as zero.
        show 2 * spacing (nearestQuanta r) ∣ nearestQuanta r
        rw [zero, nearestQuanta_zero]
        exact Nat.dvd_zero _

/-! ### The end of the range -/

/-- The end of the range, half a gap below the limit. -/
theorem exists_limit_eq : ∃ k j : ℕ, one = 2 ^ k ∧ limit = 2 ^ 53 * 2 ^ (k + j + 1) ∧
    (2 : ℚ) ^ 1024 - 2 ^ 970 = (2 ^ 54 - 1) * 2 ^ j := by
  have unit : one = Nat.pow 2 1074 := by
    unfold one
    with_reducible rfl
  have beyond : limit = Nat.pow 2 2098 := by
    unfold limit
    with_reducible rfl
  have edge : (2 : ℚ) ^ 1024 = 2 ^ 54 * 2 ^ 970 := by
    rw [← pow_add]
  have sum : 2098 = 53 + (1074 + 970 + 1) := by decide
  -- The powers are too large to be computed.
  generalize 2098 = l at beyond sum
  generalize 1074 = k at unit sum
  generalize 970 = j at edge sum
  refine ⟨k, j, ?_, ?_, ?_⟩
  · rw [unit, Nat.pow_eq]
  · rw [beyond, Nat.pow_eq, sum, Nat.pow_add]
  · rw [edge, sub_mul, one_mul]

/-- Half a gap below a power of two a number is rounded up to it. -/
theorem roundToGrid_half_below (e : ℕ) :
    roundToGrid ((2 ^ 54 - 1) * 2 ^ e) 1 = 2 ^ 53 * 2 ^ (e + 1) := by
  have positive := Nat.two_pow_pos e
  have twice : 2 ^ (e + 1) = 2 ^ e * 2 := Nat.pow_succ ..
  have binade : InBinade (e + 1) ((2 ^ 54 - 1) * 2 ^ e / 1) := by
    rw [Nat.div_one]
    refine ⟨.inl ?_, ?_⟩
    · rw [← Nat.add_assoc, Nat.add_right_comm, Nat.pow_add]
      exact Nat.mul_le_mul_right _ (by decide)
    · rw [← Nat.add_assoc, Nat.add_right_comm, Nat.pow_add]
      exact Nat.mul_lt_mul_of_pos_right (by decide) positive
  have half : roundQuotient (2 ^ 54 - 1) 2 = 2 ^ 53 := by decide
  rw [roundToGrid_eq binade, Nat.one_mul, Nat.mul_comm (2 ^ 54 - 1), twice,
    roundQuotient_mul_mul positive, half]

/-- **Which rationals are rounded to a finite number:** those below the middle of the largest number
and the limit. The middle itself is a tie, and goes to the limit. -/
theorem nearestQuanta_lt_limit_iff (nonneg : 0 ≤ r) :
    nearestQuanta r < limit ↔ r < 2 ^ 1024 - 2 ^ 970 := by
  obtain ⟨k, j, unit, beyond, edge⟩ := exists_limit_eq
  have positive : (0 : ℚ) < 2 ^ j := by positivity
  have gap : toRat (2 ^ (k + j + 1)) = 2 * 2 ^ j := by
    have power : (0 : ℚ) < 2 ^ k := by positivity
    rw [toRat, unit, div_eq_iff (by exact_mod_cast power.ne')]
    push_cast
    ring
  have rounded : nearestQuanta ((2 ^ 54 - 1) * 2 ^ j) = limit := by
    have whole : ((2 : ℚ) ^ 54 - 1) * 2 ^ j = (((2 ^ 54 - 1) * 2 ^ j : ℕ) : ℚ) / (1 : ℕ) := by
      norm_num
    rw [whole, nearestQuanta_div Nat.one_pos, unit, Nat.mul_assoc, ← Nat.pow_add,
      roundToGrid_half_below, beyond, Nat.add_comm j k]
  rw [edge]
  constructor
  · intro small
    by_contra large
    have mono := nearestQuanta_mono (mul_nonneg (by norm_num) positive.le) (not_lt.1 large)
    exact small.not_ge (rounded.symm.trans_le mono)
  · intro below
    obtain ⟨e, s, value, most, gaps, least⟩ := exists_nearestQuanta_eq nonneg
    rw [value, beyond]
    rcases Nat.lt_trichotomy e (k + j + 1) with lower | rfl | upper
    · exact Nat.mul_lt_mul_of_le_of_lt most (Nat.pow_lt_pow_right (by decide) lower)
        (Nat.two_pow_pos 53)
    · refine Nat.mul_lt_mul_of_pos_right (most.lt_of_ne ?_) (Nat.two_pow_pos _)
      rintro rfl
      -- The largest number is nearer.
      rw [gap] at gaps
      have nearer := gaps.abs_mul_sub_le (mul_pos two_pos positive) (2 ^ 53 - 1)
      generalize (2 : ℚ) ^ j = u at below nearer
      rcases le_abs.1 ((le_abs_self _).trans nearer) with same | opposite
      · norm_num at same
        linarith
      · norm_num at opposite
        linarith
    · exfalso
      have binade : toRat (2 ^ (52 + e)) ≤ r := least.resolve_right (by omega)
      have wide : toRat (2 ^ 53 * 2 ^ (k + j + 1)) ≤ toRat (2 ^ (52 + e)) := by
        rw [toRat_le_toRat_iff, ← Nat.pow_add]
        exact Nat.pow_le_pow_right (by decide) (by omega)
      rw [toRat_mul, gap] at wide
      generalize (2 : ℚ) ^ j = u at below wide positive
      norm_num at wide below
      linarith

end Abacus.Binary64
