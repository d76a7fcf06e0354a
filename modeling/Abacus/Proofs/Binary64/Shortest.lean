import Abacus.Binary64.Decimal
import Abacus.Proofs.Binary64.Monotone
import Abacus.Proofs.Decimal.Grid

/-!
# Shortest decimals

The shortest decimal of a number has the fewest significant digits of all decimals that are read as
the number, and of those with as many digits it is nearest to the number. It is found among the
neighbours of the number on finer and finer grids: where a decimal of few digits is read as the
number, so is the neighbour on its side, as rounding is monotone. Seventeen digits are always
enough.

## Main definitions

* `Binary64.IsShortest` — a decimal of fewest digits, of these the nearest, of two the even one.

## Main statements

* `Binary64.IsShortest.unique` — a magnitude has one shortest decimal.
* `Binary64.exists_neighbour` — where the shortest decimal is found.
* `Binary64.isShortest_shortestDecimal` — it is the shortest.
* `Binary64.le_leadingExponent_iff` — the power of ten that its leading digit counts.
-/

namespace Abacus.Binary64

/-- The decimal has the fewest significant digits of all that are read as a magnitude, and of those
with as many digits none is nearer. Of two that are equally near it is the even one: an even
multiple of the distance between them. -/
structure IsShortest (quanta : Nat) (d : Decimal) : Prop where
  reads : nearestQuanta d.toRat = quanta
  fewest : ∀ d' : Decimal, nearestQuanta d'.toRat = quanta → d.size ≤ d'.size
  nearest : ∀ d' : Decimal, nearestQuanta d'.toRat = quanta → d'.size = d.size →
    |d.toRat - toRat quanta| ≤ |d'.toRat - toRat quanta|
  even : ∀ d' : Decimal, nearestQuanta d'.toRat = quanta → d'.size = d.size →
    |d.toRat - toRat quanta| = |d'.toRat - toRat quanta| → d'.toRat ≠ d.toRat →
    ∃ m : Nat, d.toRat = 2 * m * |d.toRat - d'.toRat|

variable {quanta : Nat}

/-- **A magnitude has one shortest decimal.** Two of the same number of digits are told apart by
their distance, and where that is equal by their last digit. -/
theorem IsShortest.unique {d d' : Decimal} (h : IsShortest quanta d) (h' : IsShortest quanta d') :
    d.toRat = d'.toRat := by
  by_contra other
  have size := le_antisymm (h.fewest d' h'.reads) (h'.fewest d h.reads)
  have tie := le_antisymm (h.nearest d' h'.reads size.symm) (h'.nearest d h.reads size)
  obtain ⟨m, value⟩ := h.even d' h'.reads size.symm tie (Ne.symm other)
  obtain ⟨m', value'⟩ := h'.even d h.reads size tie.symm other
  have apart : 0 < |d.toRat - d'.toRat| := abs_pos.2 (sub_ne_zero.2 other)
  rw [abs_sub_comm d'.toRat] at value'
  generalize distance : |d.toRat - d'.toRat| = r at value value' apart
  rw [value, value', ← sub_mul, abs_mul, abs_of_pos apart, mul_eq_right₀ apart.ne'] at distance
  -- Two even numbers are not one apart.
  have odd : |(2 * m - 2 * m' : ℤ)| = 1 := by exact_mod_cast distance
  rcases (abs_eq zero_le_one).1 odd with one | one <;> omega

/-- Only zero has a shortest decimal that is zero. -/
theorem IsShortest.significand_ne_zero {d : Decimal} (h : IsShortest quanta d)
    (nonzero : quanta ≠ 0) : d.significand ≠ 0 := by
  intro nothing
  have reads := h.reads
  rw [Decimal.toRat, nothing, Nat.cast_zero, zero_mul, nearestQuanta_zero] at reads
  exact nonzero reads.symm

/-! ### The exact decimal -/

/-- A quantum is a power of one half, which is a decimal of as many places. -/
theorem exists_exactDecimal_eq (quanta : Nat) :
    ∃ k : Nat, 23 ≤ k ∧ exactDecimal quanta = ⟨quanta * Nat.pow 5 k, -k⟩ ∧ one = Nat.pow 2 k := by
  have places : exactDecimal quanta = ⟨quanta * Nat.pow 5 1074, -(1074 : Nat)⟩ := by
    rw [exactDecimal, Nat.cast_ofNat]
  have unit : one = Nat.pow 2 1074 := by
    unfold one
    with_reducible rfl
  -- The powers are too large to be computed.
  generalize large : 1074 = k at places unit
  exact ⟨k, by omega, places, unit⟩

theorem toRat_exactDecimal (quanta : Nat) : (exactDecimal quanta).toRat = toRat quanta := by
  obtain ⟨k, -, exact, unit⟩ := exists_exactDecimal_eq quanta
  rw [exact, Decimal.toRat, toRat, unit, Nat.pow_eq, Nat.pow_eq, zpow_neg, zpow_natCast,
    ← div_eq_mul_inv, show (10 : ℚ) = 5 * 2 by norm_num, mul_pow]
  push_cast
  rw [mul_comm (5 ^ k : ℚ), mul_div_mul_right _ _ (by positivity)]

theorem significand_exactDecimal_ne_zero (h : quanta ≠ 0) :
    (exactDecimal quanta).significand ≠ 0 := by
  obtain ⟨k, -, exact, -⟩ := exists_exactDecimal_eq quanta
  rw [exact]
  exact Nat.mul_ne_zero h (Nat.pow_pos (by decide)).ne'

/-- The exact decimal of a number that is not zero has seventeen digits or more. -/
theorem seventeen_le_digitCount (h : quanta ≠ 0) :
    17 ≤ Decimal.digitCount (exactDecimal quanta).significand := by
  obtain ⟨k, many, exact, -⟩ := exists_exactDecimal_eq quanta
  have large : 5 ^ 23 ≤ (exactDecimal quanta).significand := by
    rw [exact]
    exact (Nat.pow_le_pow_right (by decide) many).trans
      (Nat.le_mul_of_pos_left _ (Nat.pos_of_ne_zero h))
  have more : ¬ Decimal.digitCount (exactDecimal quanta).significand ≤ 16 := by
    rw [Decimal.digitCount_le_iff (by decide)]
    omega
  omega

/-! ### Candidates -/

/-- What is tried for a shortest decimal. -/
theorem shortestDecimal_eq (onGrid : OnGrid quanta) :
    shortestDecimal quanta = ((List.range' 1 17).findSome? fun count =>
      ((exactDecimal quanta).neighbours (Decimal.digitCount (exactDecimal quanta).significand -
        count)).find? fun c => nearestQuanta c.toRat = quanta).getD (exactDecimal quanta) := by
  unfold shortestDecimal
  dsimp only
  congr! 5 with count d
  rw [Bool.eq_iff_iff, decide_eq_true_iff, ← @ofDecimal_eq_finite_iff quanta false d onGrid]
  have sign := isNegative_ofDecimal false d
  generalize ofDecimal false d = x at sign ⊢
  cases x with
  | nan => simp
  | infinite negative => simp
  | finite negative n onGrid' =>
      obtain rfl : negative = false := sign
      simp

/-- **Seventeen digits are always enough.** Rounding to them moves a number by no more than one part
in `2 * 10 ^ 16`, which is less than half the gap to the next one. -/
theorem nearestQuanta_roundAt (onGrid : OnGrid quanta) (nonzero : quanta ≠ 0) :
    nearestQuanta ((exactDecimal quanta).roundAt
      (Decimal.digitCount (exactDecimal quanta).significand - 17)).toRat = quanta := by
  have half := Decimal.two_mul_abs_roundAt_sub_le (exactDecimal quanta)
    (Decimal.digitCount (exactDecimal quanta).significand - 17)
  have least := Decimal.zpow_leadingExponent_le (significand_exactDecimal_ne_zero nonzero)
  rw [Decimal.leadingExponent_eq_of_le (seventeen_le_digitCount nonzero)] at half
  have unit : (10 : ℚ) ^ (exactDecimal quanta).leadingExponent =
      10 ^ 16 * 10 ^ ((exactDecimal quanta).leadingExponent + 1 - (17 : ℕ)) := by
    rw [← zpow_natCast, ← zpow_add₀ (by norm_num)]
    congr 1
    push_cast
    ring
  rw [toRat_exactDecimal] at half least
  refine nearestQuanta_eq_of_near (Decimal.toRat_nonneg _) onGrid.2 ?_
  linarith

/-- **Where the shortest decimal is found:** it is the first neighbour that is read as the number,
on the coarsest grid with such a neighbour. -/
theorem exists_neighbour (onGrid : OnGrid quanta) (nonzero : quanta ≠ 0) :
    ∃ k, 0 < k ∧ k ≤ 17 ∧
      ((exactDecimal quanta).neighbours
          (Decimal.digitCount (exactDecimal quanta).significand - k)).find?
        (fun c => nearestQuanta c.toRat = quanta) = some (shortestDecimal quanta) ∧
      ∀ j, 0 < j → j < k → ∀ c ∈ (exactDecimal quanta).neighbours
        (Decimal.digitCount (exactDecimal quanta).significand - j),
        nearestQuanta c.toRat ≠ quanta := by
  rw [shortestDecimal_eq onGrid]
  cases found : (List.range' 1 17).findSome? fun count =>
      ((exactDecimal quanta).neighbours (Decimal.digitCount (exactDecimal quanta).significand -
        count)).find? fun c => nearestQuanta c.toRat = quanta with
  -- The search always finds something: seventeen digits are enough.
  | none =>
      rw [List.findSome?_eq_none_iff] at found
      have nothing := List.find?_eq_none.1 (found 17 (by decide)) _
        (Decimal.roundAt_mem_neighbours _ _)
      exact absurd (nearestQuanta_roundAt onGrid nonzero) (by simpa using nothing)
  | some d =>
      obtain ⟨before, k, after, split, hit, misses⟩ := List.findSome?_eq_some_iff.1 found
      have range : k ∈ List.range' 1 17 := by
        rw [split]
        simp
      refine ⟨k, ?_, ?_, hit, fun j positive less c member => ?_⟩
      · rw [List.mem_range'_1] at range
        omega
      · rw [List.mem_range'_1] at range
        omega
      · have order : (before ++ k :: after).Pairwise (· < ·) := split ▸ List.pairwise_lt_range'
        have inside : j ∈ before ++ k :: after := by
          rw [← split, List.mem_range'_1]
          rw [List.mem_range'_1] at range
          omega
        have earlier : j ∈ before := by
          -- The numbers of digits are tried in increasing order.
          refine (List.mem_append.1 inside).resolve_right fun later => ?_
          rcases List.mem_cons.1 later with rfl | later
          · exact less.false
          · have := (List.pairwise_cons.1 (List.pairwise_append.1 order).2.1).1 j later
            omega
        have missed := List.find?_eq_none.1 (misses j earlier) c member
        simpa using missed

/-! ### The shortest decimal -/

/-- The shortest decimal is read as the number. -/
theorem nearestQuanta_shortestDecimal (onGrid : OnGrid quanta) :
    nearestQuanta (shortestDecimal quanta).toRat = quanta :=
  ofDecimal_eq_finite_iff.1 (ofDecimal_shortestDecimal onGrid)

/-- Of the decimals that are tried for zero, zero is the first. -/
theorem findSome?_neighbours_zero {p : Decimal → Bool} {e : Int} (holds : p ⟨0, e⟩ = true) :
    (List.range' 1 17).findSome? (fun count =>
      ((Decimal.mk 0 e).neighbours (Decimal.digitCount 0 - count)).find? p) = some ⟨0, e⟩ := by
  have count : Decimal.digitCount 0 - 1 = 0 := by decide
  rw [List.range'_succ, List.findSome?_cons, count, Decimal.neighbours_zero, List.find?_cons, holds]

theorem exists_shortestDecimal_zero : ∃ e, shortestDecimal 0 = ⟨0, e⟩ := by
  obtain ⟨k, -, exact, -⟩ := exists_exactDecimal_eq 0
  rw [Nat.zero_mul] at exact
  have value : (Decimal.mk 0 (-k)).toRat = 0 := by simp [Decimal.toRat]
  refine ⟨-k, ?_⟩
  rw [shortestDecimal_eq onGrid_zero, exact, findSome?_neighbours_zero, Option.getD_some]
  rw [value, nearestQuanta_zero, decide_eq_true rfl]

/-- `Between a b v`: from `a` towards `v`, `b` comes before `v` or is `v`. -/
def Between (a b v : ℚ) : Prop := a ≤ b ∧ b ≤ v ∨ v ≤ b ∧ b ≤ a

theorem Between.abs_sub_le {a b v : ℚ} (h : Between a b v) : |b - v| ≤ |a - v| := by
  rcases h with ⟨least, most⟩ | ⟨least, most⟩
  · rw [abs_of_nonpos (by linarith), abs_of_nonpos (by linarith)]
    linarith
  · rw [abs_of_nonneg (by linarith), abs_of_nonneg (by linarith)]
    linarith

theorem Between.eq_of_abs_sub_le {a b v : ℚ} (h : Between a b v) (le : |a - v| ≤ |b - v|) :
    a = b := by
  rcases h with ⟨least, most⟩ | ⟨least, most⟩
  · rw [abs_of_nonpos (by linarith), abs_of_nonpos (by linarith)] at le
    linarith
  · rw [abs_of_nonneg (by linarith), abs_of_nonneg (by linarith)] at le
    linarith

/-- Between a number and a decimal that is read as it, every decimal is read as it. -/
theorem nearestQuanta_eq_of_between {r r' : ℚ} (onGrid : OnGrid quanta) (nonneg : 0 ≤ r)
    (reads : nearestQuanta r = quanta) (between : Between r r' (toRat quanta)) :
    nearestQuanta r' = quanta := by
  have self := nearestQuanta_toRat onGrid.2
  rcases between with ⟨least, most⟩ | ⟨least, most⟩
  · have lower := nearestQuanta_mono nonneg least
    have upper := nearestQuanta_mono (nonneg.trans least) most
    omega
  · have lower := nearestQuanta_mono (toRat_nonneg quanta) least
    have upper := nearestQuanta_mono ((toRat_nonneg quanta).trans least) most
    omega

/-- Where a decimal of few digits is read as the number, so is a neighbour on its side. -/
theorem exists_neighbour_of_size_le {k : Nat} {d : Decimal} (onGrid : OnGrid quanta)
    (nonzero : quanta ≠ 0) (positive : 0 < k) (few : k ≤ 17)
    (reads : nearestQuanta d.toRat = quanta) (small : d.size ≤ k) :
    ∃ c ∈ (exactDecimal quanta).neighbours
        (Decimal.digitCount (exactDecimal quanta).significand - k),
      nearestQuanta c.toRat = quanta ∧ Between d.toRat c.toRat (toRat quanta) := by
  have room := few.trans (seventeen_le_digitCount nonzero)
  have below := Decimal.floor_le_toRat (exactDecimal quanta)
    (Decimal.digitCount (exactDecimal quanta).significand - k)
  have above := Decimal.toRat_lt_floor_add_one (exactDecimal quanta)
    (Decimal.digitCount (exactDecimal quanta).significand - k)
  rw [toRat_exactDecimal] at below above
  rcases Decimal.le_or_le_of_size_le (significand_exactDecimal_ne_zero nonzero) positive room small
    with less | more
  · exact ⟨_, Decimal.mem_neighbours_iff.2 (.inl rfl),
      nearestQuanta_eq_of_between onGrid d.toRat_nonneg reads (.inl ⟨less, below⟩),
      .inl ⟨less, below⟩⟩
  · exact ⟨_, Decimal.mem_neighbours_iff.2 (.inr rfl),
      nearestQuanta_eq_of_between onGrid d.toRat_nonneg reads (.inr ⟨above.le, more⟩),
      .inr ⟨above.le, more⟩⟩

/-- **The shortest decimal is the shortest.** The search goes from few digits to many and takes the
first neighbour that is read as the number; what lies beyond the two neighbours cannot be read as it
if they are not. -/
theorem isShortest_shortestDecimal (onGrid : OnGrid quanta) :
    IsShortest quanta (shortestDecimal quanta) := by
  have reads := nearestQuanta_shortestDecimal onGrid
  by_cases zero : quanta = 0
  · subst zero
    obtain ⟨e, zero⟩ := exists_shortestDecimal_zero
    have value : (Decimal.mk 0 e).toRat = 0 := by simp [Decimal.toRat]
    rw [zero] at reads ⊢
    refine ⟨reads, fun d _ => ?_, fun d _ _ => ?_, fun d _ _ tie other => ?_⟩
    · exact List.length_pos_of_ne_nil (Decimal.isDigits_significantDigits _).1
    · rw [value, toRat_zero, sub_zero, abs_zero]
      exact abs_nonneg _
    · rw [value, toRat_zero, sub_zero, sub_zero, abs_zero, eq_comm, abs_eq_zero] at tie
      exact absurd (tie.trans value.symm) other
  · obtain ⟨k, positive, few, found, coarser⟩ := exists_neighbour onGrid zero
    have room := few.trans (seventeen_le_digitCount zero)
    have size : (shortestDecimal quanta).size ≤ k :=
      Decimal.size_le_of_mem_neighbours positive room (List.mem_of_find?_eq_some found)
    -- A decimal with fewer digits would lie next to a neighbour on a coarser grid that is read as
    -- the number, and there is none.
    have minimal (d : Decimal) (reads : nearestQuanta d.toRat = quanta) : k ≤ d.size := by
      by_contra less
      have some : 0 < d.size := List.length_pos_of_ne_nil (Decimal.isDigits_significantDigits _).1
      obtain ⟨c, member, hit, -⟩ :=
        exists_neighbour_of_size_le onGrid zero some (by omega) reads le_rfl
      exact coarser d.size some (by omega) c member hit
    refine ⟨reads, fun d reads' => size.trans (minimal d reads'), fun d reads' same => ?_,
      fun d reads' same tie other => ?_⟩
    all_goals
      obtain ⟨c, member, hit, between⟩ :=
        exists_neighbour_of_size_le onGrid zero positive few reads' (same.le.trans size)
      have first := Decimal.abs_sub_le_of_find? found member (by simpa using hit)
      rw [toRat_exactDecimal] at first
    · exact first.trans between.abs_sub_le
    · -- Equally near, so the neighbour itself.
      rw [tie] at first
      have value := between.eq_of_abs_sub_le first
      rw [value] at tie other ⊢
      rw [← toRat_exactDecimal] at tie
      exact Decimal.exists_two_mul_of_find? found member (by simpa using hit) tie other

/-! ### Decades -/

/-- **The shortest decimal is not in a lower decade** than the number. A power of ten between the
two would be read as the number as well, and is shorter or nearer. -/
theorem zpow_le_toRat_shortestDecimal {e : Int} (onGrid : OnGrid quanta)
    (h : 10 ^ e ≤ toRat quanta) : 10 ^ e ≤ (shortestDecimal quanta).toRat := by
  have nonzero : quanta ≠ 0 := by
    rintro rfl
    rw [toRat_zero] at h
    exact (Decimal.ten_zpow_pos e).not_ge h
  obtain ⟨k, positive, few, found, -⟩ := exists_neighbour onGrid nonzero
  have decade := (Decimal.zpow_le_of_mem_neighbours (significand_exactDecimal_ne_zero nonzero)
    positive (few.trans (seventeen_le_digitCount nonzero)) (List.mem_of_find?_eq_some found)).1
  have below := Decimal.toRat_lt_zpow (exactDecimal quanta)
  rw [toRat_exactDecimal] at below
  have lower := (zpow_lt_zpow_iff_right₀ (by norm_num : (1 : ℚ) < 10)).1 (h.trans_lt below)
  exact (zpow_le_zpow_right₀ (by norm_num) (by omega)).trans decade

/-- A power of ten that is not rounded down is compared like the number that it is rounded to. -/
theorem nearestQuanta_zpow_le_iff {e : Int} (onGrid : OnGrid quanta)
    (up : 10 ^ e ≤ toRat (nearestQuanta (10 ^ e))) :
    nearestQuanta (10 ^ e) ≤ quanta ↔ 10 ^ e ≤ toRat quanta :=
  ⟨fun le => up.trans (toRat_le_toRat_iff.2 le),
    fun le => (nearestQuanta_mono (Decimal.ten_zpow_pos e).le le).trans_eq
      (nearestQuanta_toRat onGrid.2)⟩

/-- **The decade of the shortest decimal** is known from the number, wherever the power of ten that
it starts with is not rounded down. -/
theorem le_leadingExponent_iff {e : Int} (onGrid : OnGrid quanta) (nonzero : quanta ≠ 0)
    (up : 10 ^ e ≤ toRat (nearestQuanta (10 ^ e))) :
    e ≤ (shortestDecimal quanta).leadingExponent ↔ 10 ^ e ≤ toRat quanta := by
  constructor
  · intro le
    have least := Decimal.zpow_leadingExponent_le
      ((isShortest_shortestDecimal onGrid).significand_ne_zero nonzero)
    have decade := (zpow_le_zpow_right₀ (by norm_num : (1 : ℚ) ≤ 10) le).trans least
    have mono := nearestQuanta_mono (Decimal.ten_zpow_pos e).le decade
    rw [nearestQuanta_shortestDecimal onGrid] at mono
    exact (nearestQuanta_zpow_le_iff onGrid up).1 mono
  · intro le
    have above := (zpow_le_toRat_shortestDecimal onGrid le).trans_lt (Decimal.toRat_lt_zpow _)
    rw [zpow_lt_zpow_iff_right₀ (by norm_num)] at above
    omega

end Abacus.Binary64
