import Abacus.Proofs.Decimal.Notation

/-!
# Decimal grids

The multiples of a power of ten are a grid. A decimal lies between its two neighbours on it, and a
number of few significant digits is no nearer: from the power of ten that the leading digit counts
upwards, all numbers of `k` digits or fewer are on the grid on which the decimal itself has `k`
digits.

## Main definitions

* `Decimal.size` — the number of significant digits.

## Main statements

* `Decimal.mem_neighbours_iff` — the two neighbours.
* `Decimal.abs_roundAt_sub_le` — the first neighbour is the nearer one.
* `Decimal.exists_two_mul_of_find?` — of two that are equally near, the even one is first.
* `Decimal.le_or_le_of_size_le` — no decimal of few digits lies between the neighbours.
-/

namespace Abacus.Decimal

open Numeral

/-! ### Significant digits -/

/-- The number of significant digits. Zeros at the end do not count, so it depends on the value
only. -/
def size (d : Decimal) : Nat := (significantDigits d.significand).length

theorem pow_digitCount_le {n : Nat} (h : n ≠ 0) : 10 ^ (digitCount n - 1) ≤ n := by
  by_cases single : digitCount n - 1 = 0
  · rw [single]
    omega
  · by_contra less
    have count := (digitCount_le_iff (Nat.pos_of_ne_zero single)).2 (not_le.1 less)
    omega

theorem lt_pow_digitCount (n : Nat) : n < 10 ^ digitCount n :=
  (digitCount_le_iff Nat.length_toDigits_pos).1 le_rfl

/-- Zeros behind a number are not significant. -/
theorem significantDigits_mul_pow {n : Nat} (h : n ≠ 0) (k : Nat) :
    significantDigits (n * 10 ^ k) = significantDigits n := by
  induction k with
  | zero => rw [Nat.pow_zero, Nat.mul_one]
  | succ k ih =>
      have nonzero : n * 10 ^ k ≠ 0 := Nat.mul_ne_zero h (Nat.pow_pos (by decide)).ne'
      rw [← ih, Nat.pow_succ, ← Nat.mul_assoc]
      generalize n * 10 ^ k = m at nonzero
      have digits : digits (m * 10) = digits m ++ ['0'] := by
        unfold Decimal.digits
        rw [Nat.toDigits_of_base_le (by decide) (by omega), Nat.mul_div_cancel m (by decide),
          Nat.mul_mod_left]
        rfl
      rw [significantDigits, significantDigits, if_neg nonzero, if_neg (by omega), digits]
      simp

/-- A number up to a power of ten has few significant digits: the power itself has one. -/
theorem length_significantDigits_le {n k : Nat} (positive : 0 < k) (h : n ≤ 10 ^ k) :
    (significantDigits n).length ≤ k := by
  by_cases zero : n = 0
  · rw [zero]
    exact positive
  · rcases h.lt_or_eq with less | rfl
    · obtain ⟨zeros, split⟩ := digits_eq_append zero
      have count := (digitCount_le_iff positive).2 less
      rw [digitCount, split, List.length_append] at count
      omega
    · rw [← Nat.one_mul (10 ^ k), significantDigits_mul_pow Nat.one_ne_zero]
      exact positive

/-! ### Leading digits -/

variable {c d d' : Decimal}

theorem ten_zpow_pos (e : Int) : (0 : ℚ) < 10 ^ e := zpow_pos (by norm_num) e

theorem zpow_leadingExponent_le (h : d.significand ≠ 0) : 10 ^ d.leadingExponent ≤ d.toRat := by
  have count : 0 < digitCount d.significand := Nat.length_toDigits_pos
  have split : d.leadingExponent = (digitCount d.significand - 1 : ℕ) + d.exponent := by
    rw [leadingExponent]
    omega
  rw [split, zpow_add₀ (by norm_num), zpow_natCast, toRat]
  refine mul_le_mul_of_nonneg_right ?_ (ten_zpow_pos _).le
  exact_mod_cast pow_digitCount_le h

theorem toRat_lt_zpow (d : Decimal) : d.toRat < 10 ^ (d.leadingExponent + 1) := by
  have split : d.leadingExponent + 1 = (digitCount d.significand : ℕ) + d.exponent := by
    rw [leadingExponent]
    omega
  rw [split, zpow_add₀ (by norm_num), zpow_natCast, toRat]
  refine mul_lt_mul_of_pos_right ?_ (ten_zpow_pos _)
  exact_mod_cast lt_pow_digitCount d.significand

/-- The power of ten that the leading digit counts is known from the value. -/
theorem leadingExponent_eq {e : Int} (h : d.significand ≠ 0) (least : 10 ^ e ≤ d.toRat)
    (below : d.toRat < 10 ^ (e + 1)) : d.leadingExponent = e := by
  have lower := (zpow_lt_zpow_iff_right₀ (by norm_num : (1 : ℚ) < 10)).1
    ((zpow_leadingExponent_le h).trans_lt below)
  have upper := (zpow_lt_zpow_iff_right₀ (by norm_num : (1 : ℚ) < 10)).1
    (least.trans_lt (toRat_lt_zpow d))
  omega

/-- The value is a multiple of a power of ten, by a number of as many digits as are significant. -/
theorem exists_toRat_eq_of_size (h : d.significand ≠ 0) :
    ∃ n : Nat, d.toRat = n * 10 ^ (d.leadingExponent + 1 - d.size) ∧ n < 10 ^ d.size := by
  have digits := isDigits_significantDigits d.significand
  have whole : IsWhole (significantDigits d.significand) :=
    ⟨digits, fun zero => absurd zero (head?_significantDigits_ne h)⟩
  refine ⟨ofDigits (significantDigits d.significand), toRat_eq_significantDigits d h, ?_⟩
  have less := lt_pow_digitCount (ofDigits (significantDigits d.significand))
  rwa [digitCount, digits_ofDigits whole] at less

/-! ### Neighbours -/

variable {dropped : Nat}

theorem toRat_add (n : Nat) (e : Int) (k : Nat) :
    (Decimal.mk n (e + k)).toRat = (n * 10 ^ k : ℕ) * 10 ^ e := by
  rw [toRat, zpow_add₀ (by norm_num), zpow_natCast]
  push_cast
  ring

/-- **The two neighbours of a decimal** on a grid are the multiples below and above it. A decimal on
the grid is the first of its neighbours, and the other is the next one above. -/
theorem mem_neighbours_iff :
    c ∈ d.neighbours dropped ↔ c = ⟨d.significand / 10 ^ dropped, d.exponent + dropped⟩ ∨
      c = ⟨d.significand / 10 ^ dropped + 1, d.exponent + dropped⟩ := by
  have least := div_le_roundQuotient d.significand (10 ^ dropped)
  have most := roundQuotient_le d.significand (10 ^ dropped)
  unfold neighbours roundAt
  simp only [Nat.pow_eq, List.mem_cons, List.not_mem_nil, or_false]
  obtain down | up : roundQuotient d.significand (10 ^ dropped) = d.significand / 10 ^ dropped ∨
      roundQuotient d.significand (10 ^ dropped) = d.significand / 10 ^ dropped + 1 := by omega
  · rw [if_pos down, down]
  · rw [if_neg (by omega), up]
    exact or_comm

theorem roundAt_mem_neighbours (d : Decimal) (dropped : Nat) :
    d.roundAt dropped ∈ d.neighbours dropped :=
  List.mem_cons_self

theorem floor_le_toRat (d : Decimal) (dropped : Nat) :
    (Decimal.mk (d.significand / 10 ^ dropped) (d.exponent + dropped)).toRat ≤ d.toRat := by
  rw [toRat_add, toRat]
  refine mul_le_mul_of_nonneg_right ?_ (ten_zpow_pos _).le
  exact_mod_cast Nat.div_mul_le_self d.significand (10 ^ dropped)

theorem toRat_lt_floor_add_one (d : Decimal) (dropped : Nat) :
    d.toRat < (Decimal.mk (d.significand / 10 ^ dropped + 1) (d.exponent + dropped)).toRat := by
  rw [toRat_add, toRat]
  refine mul_lt_mul_of_pos_right ?_ (ten_zpow_pos _)
  exact_mod_cast Nat.lt_mul_of_div_lt (Nat.lt_succ_self _) (Nat.pow_pos (by decide))

/-- The neighbours are one unit apart. -/
theorem floor_add_one_toRat (n : Nat) (e : Int) :
    (Decimal.mk (n + 1) e).toRat = (Decimal.mk n e).toRat + 10 ^ e := by
  rw [toRat, toRat]
  push_cast
  ring

/-- The rounded decimal is within half a unit. -/
theorem two_mul_abs_roundAt_sub_le (d : Decimal) (dropped : Nat) :
    2 * |(d.roundAt dropped).toRat - d.toRat| ≤ 10 ^ (d.exponent + dropped) := by
  have power : 0 < 10 ^ dropped := Nat.pow_pos (by decide)
  obtain ⟨least, most⟩ := roundQuotient_error d.significand power
  have unit : (10 : ℚ) ^ (d.exponent + dropped) = (10 ^ dropped : ℕ) * 10 ^ d.exponent := by
    rw [zpow_add₀ (by norm_num), zpow_natCast, mul_comm]
    push_cast
    rfl
  rw [roundAt, toRat_add, toRat, ← sub_mul, abs_mul, abs_of_pos (ten_zpow_pos _), unit, ← mul_assoc,
    Nat.pow_eq]
  refine mul_le_mul_of_nonneg_right ?_ (ten_zpow_pos _).le
  have least' : (2 * d.significand : ℚ) ≤
      2 * (roundQuotient d.significand (10 ^ dropped) * 10 ^ dropped : ℕ) + (10 ^ dropped : ℕ) := by
    exact_mod_cast least
  have most' : (2 * (roundQuotient d.significand (10 ^ dropped) * 10 ^ dropped : ℕ) : ℚ) ≤
      2 * d.significand + (10 ^ dropped : ℕ) := by
    exact_mod_cast most
  rw [← abs_two, ← abs_mul, abs_le]
  constructor <;> linarith

/-- **The first neighbour is the nearer one.** The search for the shortest decimal tries it first
for this reason. -/
theorem abs_roundAt_sub_le (h : c ∈ d.neighbours dropped) :
    |(d.roundAt dropped).toRat - d.toRat| ≤ |c.toRat - d.toRat| := by
  have half := two_mul_abs_roundAt_sub_le d dropped
  have below := floor_le_toRat d dropped
  have above := toRat_lt_floor_add_one d dropped
  have apart := floor_add_one_toRat (d.significand / 10 ^ dropped) (d.exponent + dropped)
  have nearer := mem_neighbours_iff.1 (roundAt_mem_neighbours d dropped)
  generalize d.roundAt dropped = r at half nearer ⊢
  rcases mem_neighbours_iff.1 h with rfl | rfl <;> rcases nearer with rfl | rfl
  · exact le_rfl
  · rw [abs_of_nonneg (by linarith)] at half ⊢
    rw [abs_of_nonpos (by linarith)]
    linarith
  · rw [abs_of_nonpos (by linarith)] at half ⊢
    rw [abs_of_nonneg (by linarith)]
    linarith
  · exact le_rfl

/-- The first neighbour with a property is the nearer one, or no other has it. -/
theorem eq_roundAt_or_eq_of_find? {p : Decimal → Bool}
    (found : (d.neighbours dropped).find? p = some c) (member : d' ∈ d.neighbours dropped)
    (holds : p d' = true) : c = d.roundAt dropped ∨ d' = c := by
  rw [neighbours] at found member
  rw [List.find?_cons] at found
  split at found
  · exact .inl (Option.some.inj found).symm
  · next missed =>
      rw [List.mem_cons, List.mem_singleton] at member
      rcases member with rfl | rfl
      · rw [holds] at missed
        cases missed
      · exact .inr (List.mem_singleton.1 (List.mem_of_find?_eq_some found)).symm

/-- Of the neighbours with a property, the first is nearest. -/
theorem abs_sub_le_of_find? {p : Decimal → Bool} (found : (d.neighbours dropped).find? p = some c)
    (member : d' ∈ d.neighbours dropped) (holds : p d' = true) :
    |c.toRat - d.toRat| ≤ |d'.toRat - d.toRat| := by
  rcases eq_roundAt_or_eq_of_find? found member holds with rfl | rfl
  · exact abs_roundAt_sub_le member
  · exact le_rfl

/-- Half-way between its neighbours, a decimal is rounded to the even one. -/
theorem even_roundAt (h : 2 * d.significand =
    2 * (d.significand / 10 ^ dropped * 10 ^ dropped) + 10 ^ dropped) :
    2 ∣ (d.roundAt dropped).significand := by
  have split := Nat.div_add_mod' d.significand (10 ^ dropped)
  have rest : 2 * (d.significand % 10 ^ dropped) = 10 ^ dropped := by omega
  rw [roundAt, Nat.pow_eq]
  dsimp only
  rw [roundQuotient, rest, if_neg (lt_irrefl _), if_neg (lt_irrefl _)]
  split <;> omega

/-- **Of two neighbours that are equally near the even one is found.** Being even is said of the
multiple of the gap between them, whatever the unit. -/
theorem exists_two_mul_of_find? {p : Decimal → Bool}
    (found : (d.neighbours dropped).find? p = some c) (member : d' ∈ d.neighbours dropped)
    (holds : p d' = true) (tie : |c.toRat - d.toRat| = |d'.toRat - d.toRat|)
    (other : d'.toRat ≠ c.toRat) : ∃ m : Nat, c.toRat = 2 * m * |c.toRat - d'.toRat| := by
  have first : c = d.roundAt dropped :=
    (eq_roundAt_or_eq_of_find? found member holds).resolve_right fun same =>
      other (congrArg toRat same)
  have below := floor_le_toRat d dropped
  have above := toRat_lt_floor_add_one d dropped
  have apart := floor_add_one_toRat (d.significand / 10 ^ dropped) (d.exponent + dropped)
  have unit := ten_zpow_pos (d.exponent + dropped)
  have half : 2 * d.toRat =
      2 * (Decimal.mk (d.significand / 10 ^ dropped) (d.exponent + dropped)).toRat +
        10 ^ (d.exponent + dropped) ∧ |c.toRat - d'.toRat| = 10 ^ (d.exponent + dropped) := by
    rcases mem_neighbours_iff.1 (List.mem_of_find?_eq_some found) with rfl | rfl <;>
      rcases mem_neighbours_iff.1 member with rfl | rfl
    · exact absurd rfl other
    · rw [abs_of_nonpos (by linarith), abs_of_nonneg (by linarith)] at tie
      exact ⟨by linarith, by rw [abs_of_nonpos (by linarith)]; linarith⟩
    · rw [abs_of_nonneg (by linarith), abs_of_nonpos (by linarith)] at tie
      exact ⟨by linarith, by rw [abs_of_nonneg (by linarith)]; linarith⟩
    · exact absurd rfl other
  have even : 2 ∣ c.significand := by
    rw [first]
    refine even_roundAt ?_
    have scaled := half.1
    rw [toRat_add, toRat, zpow_add₀ (by norm_num), zpow_natCast, mul_comm (10 ^ d.exponent),
      ← mul_assoc, ← mul_assoc, ← add_mul, mul_left_inj' (ten_zpow_pos _).ne'] at scaled
    exact_mod_cast scaled
  obtain ⟨m, value⟩ := even
  refine ⟨m, ?_⟩
  have exponent : c.exponent = d.exponent + dropped := by rw [first, roundAt]
  rw [half.2, toRat, value, exponent]
  push_cast
  rfl

/-- Zero is its own first neighbour. -/
theorem neighbours_zero (e : Int) : (Decimal.mk 0 e).neighbours 0 = [⟨0, e⟩, ⟨1, e⟩] := by
  rw [neighbours, roundAt]
  simp [roundQuotient]

/-! ### Grids of few digits -/

/-- Where the grid has room for `k` digits of the decimal. -/
theorem leadingExponent_eq_of_le {k : Nat} (h : k ≤ digitCount d.significand) :
    d.exponent + (digitCount d.significand - k : ℕ) = d.leadingExponent + 1 - k := by
  rw [leadingExponent]
  omega

/-- On a grid with room for `k` digits of the decimal, the multiple below it has `k` digits. -/
theorem pow_le_floor {k : Nat} (nonzero : d.significand ≠ 0) (positive : 0 < k)
    (h : k ≤ digitCount d.significand) :
    10 ^ (k - 1) ≤ d.significand / 10 ^ (digitCount d.significand - k) := by
  rw [Nat.le_div_iff_mul_le (Nat.pow_pos (by decide)), ← Nat.pow_add]
  exact (Nat.pow_le_pow_right (by decide) (by omega)).trans (pow_digitCount_le nonzero)

theorem floor_lt_pow {k : Nat} (h : k ≤ digitCount d.significand) :
    d.significand / 10 ^ (digitCount d.significand - k) < 10 ^ k := by
  rw [Nat.div_lt_iff_lt_mul (Nat.pow_pos (by decide)), ← Nat.pow_add]
  exact (lt_pow_digitCount _).trans_le (Nat.pow_le_pow_right (by decide) (by omega))

/-- The neighbours have no more digits than the grid has room for. -/
theorem size_le_of_mem_neighbours {k : Nat} (positive : 0 < k)
    (h : k ≤ digitCount d.significand)
    (member : c ∈ d.neighbours (digitCount d.significand - k)) : c.size ≤ k := by
  have below := floor_lt_pow h
  rcases mem_neighbours_iff.1 member with rfl | rfl
  · exact length_significantDigits_le positive below.le
  · exact length_significantDigits_le positive below

/-- The neighbours are in the decade of the decimal, or the power of ten above it. -/
theorem zpow_le_of_mem_neighbours {k : Nat} (nonzero : d.significand ≠ 0) (positive : 0 < k)
    (h : k ≤ digitCount d.significand)
    (member : c ∈ d.neighbours (digitCount d.significand - k)) :
    10 ^ d.leadingExponent ≤ c.toRat ∧ c.toRat ≤ 10 ^ (d.leadingExponent + 1) := by
  have least := pow_le_floor nonzero positive h
  have below := floor_lt_pow h
  have bounds {n : Nat} (least : 10 ^ (k - 1) ≤ n) (most : n ≤ 10 ^ k) :
      10 ^ d.leadingExponent ≤
        (Decimal.mk n (d.exponent + (digitCount d.significand - k : ℕ))).toRat ∧
      (Decimal.mk n (d.exponent + (digitCount d.significand - k : ℕ))).toRat ≤
        10 ^ (d.leadingExponent + 1) := by
    have unit := ten_zpow_pos (d.leadingExponent + 1 - k)
    have lower : (10 : ℚ) ^ d.leadingExponent =
        (10 ^ (k - 1) : ℕ) * 10 ^ (d.leadingExponent + 1 - k) := by
      push_cast
      rw [← zpow_natCast, ← zpow_add₀ (by norm_num)]
      congr 1
      omega
    have upper : (10 : ℚ) ^ (d.leadingExponent + 1) =
        (10 ^ k : ℕ) * 10 ^ (d.leadingExponent + 1 - k) := by
      push_cast
      rw [← zpow_natCast, ← zpow_add₀ (by norm_num)]
      congr 1
      omega
    rw [leadingExponent_eq_of_le h, toRat, lower, upper]
    exact ⟨mul_le_mul_of_nonneg_right (by exact_mod_cast least) unit.le,
      mul_le_mul_of_nonneg_right (by exact_mod_cast most) unit.le⟩
  rcases mem_neighbours_iff.1 member with rfl | rfl
  · exact bounds least below.le
  · exact bounds (least.trans (Nat.le_succ _)) below

/-- **No decimal of few digits lies between the neighbours.** It would be a multiple of a coarser
grid, and every such multiple is one of this grid. -/
theorem le_or_le_of_size_le {k : Nat} (nonzero : d.significand ≠ 0) (positive : 0 < k)
    (h : k ≤ digitCount d.significand) (small : d'.size ≤ k) :
    d'.toRat ≤ (Decimal.mk (d.significand / 10 ^ (digitCount d.significand - k))
        (d.exponent + (digitCount d.significand - k : ℕ))).toRat ∨
      (Decimal.mk (d.significand / 10 ^ (digitCount d.significand - k) + 1)
        (d.exponent + (digitCount d.significand - k : ℕ))).toRat ≤ d'.toRat := by
  have inside := zpow_le_of_mem_neighbours nonzero positive h (mem_neighbours_iff.2 (.inl rfl))
  rw [leadingExponent_eq_of_le h] at inside ⊢
  generalize d.significand / 10 ^ (digitCount d.significand - k) = n at inside ⊢
  by_cases less : d'.toRat < 10 ^ d.leadingExponent
  · exact .inl (less.le.trans inside.1)
  · -- The decimal is a multiple of the unit of the grid.
    have nonzero' : d'.significand ≠ 0 := by
      intro zero
      rw [toRat, zero] at less
      simp [ten_zpow_pos] at less
    obtain ⟨m, value, few⟩ := exists_toRat_eq_of_size nonzero'
    have coarse : d.leadingExponent + 1 - k ≤ d'.leadingExponent + 1 - d'.size := by
      have lower := (zpow_lt_zpow_iff_right₀ (by norm_num : (1 : ℚ) < 10)).1
        ((not_lt.1 less).trans_lt (toRat_lt_zpow d'))
      omega
    obtain ⟨j, exponent⟩ := Int.le.dest coarse
    rw [← exponent] at value
    have multiple : d'.toRat = (m * 10 ^ j : ℕ) * 10 ^ (d.leadingExponent + 1 - k) :=
      value.trans (toRat_add m _ j)
    rw [multiple, toRat, toRat]
    have unit := (ten_zpow_pos (d.leadingExponent + 1 - k)).le
    exact (Nat.lt_or_ge n (m * 10 ^ j)).symm.imp
      (fun le => mul_le_mul_of_nonneg_right (by exact_mod_cast le) unit)
      (fun lt => mul_le_mul_of_nonneg_right (by exact_mod_cast lt) unit)

end Abacus.Decimal
