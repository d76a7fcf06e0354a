import Abacus.Proofs.Binary64.Display
import Abacus.Proofs.Binary64.Nearest

/-!
# Exact operations

An operation rounds its exact result once, so where the exact result is a number, the operation
gives that number. Integers up to `2 ^ 53` are numbers.

## Main definitions

* `Binary64.ofQuanta` — a number of quanta as a rational.

## Main statements

* `Binary64.rat?_add`, `rat?_sub`, `rat?_mul`, `rat?_div` — results that need no rounding.
* `Binary64.exists_rat?_eq_intCast` — integers that are numbers.
-/

namespace Abacus.Binary64

variable {x y z : Binary64} {r s : ℚ} {m n : ℕ} {p q : ℤ}

/-! ### Numbers of quanta -/

/-- The rational that is a number of quanta, negative numbers included. Every finite number is one
of these, though not the other way round. -/
def ofQuanta (q : ℤ) : ℚ := (q : ℚ) / one

theorem ofQuanta_inj : ofQuanta p = ofQuanta q ↔ p = q := by
  rw [ofQuanta, ofQuanta, div_left_inj' cast_one_pos.ne', Int.cast_inj]

theorem ofQuanta_eq_zero_iff : ofQuanta q = 0 ↔ q = 0 := by
  rw [ofQuanta, div_eq_zero_iff, or_iff_left cast_one_pos.ne', Int.cast_eq_zero]

theorem ofQuanta_add (p q : ℤ) : ofQuanta p + ofQuanta q = ofQuanta (p + q) := by
  rw [ofQuanta, ofQuanta, ofQuanta, ← add_div, Int.cast_add]

theorem ofQuanta_neg (q : ℤ) : -ofQuanta q = ofQuanta (-q) := by
  rw [ofQuanta, ofQuanta, Int.cast_neg, neg_div]

/-- An integer is so many times the quanta in one. -/
theorem ofQuanta_mul_one (n : ℤ) : ofQuanta (n * one) = n := by
  rw [ofQuanta, Int.cast_mul, Int.cast_natCast, mul_div_cancel_right₀ _ cast_one_pos.ne']

theorem signedQuanta_mul (a b : Bool) (m n : ℕ) :
    signedQuanta a m * signedQuanta b n = signedQuanta (a != b) (m * n) := by
  cases a <;> cases b <;> simp [signedQuanta]

/-- An integer is its magnitude with its sign. -/
theorem signedQuanta_natAbs (n : ℤ) : signedQuanta (decide (n < 0)) n.natAbs = n := by
  by_cases minus : n < 0
  · simp only [signedQuanta, minus, decide_true, if_true]
    omega
  · simp only [signedQuanta, minus, decide_false, Bool.false_eq_true, if_false]
    omega

/-- A finite number is its signed quanta. -/
theorem rat?_finite (negative : Bool) (onGrid : OnGrid n) :
    (finite negative n onGrid).rat? = some (ofQuanta (signedQuanta negative n)) := by
  cases negative with
  | false => rfl
  | true => exact congrArg some (ofQuanta_neg n)

/-- Only finite numbers are rationals. -/
theorem exists_of_rat?_eq_some (h : x.rat? = some r) :
    ∃ negative n onGrid, x = finite negative n onGrid ∧ r = ofQuanta (signedQuanta negative n) := by
  cases x with
  | nan => cases h
  | infinite => cases h
  | finite negative n onGrid =>
      rw [rat?_finite, Option.some_inj] at h
      exact ⟨negative, n, onGrid, rfl, h.symm⟩

/-- The sign of zero does not matter to what a number is. -/
theorem isZero_eq_of_rat? (h : x.rat? = some r) : x.isZero = decide (r = 0) := by
  obtain ⟨negative, n, onGrid, rfl, rfl⟩ := exists_of_rat?_eq_some h
  rw [isZero, Bool.eq_iff_iff, beq_iff_eq, decide_eq_true_iff, ofQuanta_eq_zero_iff,
    ← Int.natAbs_eq_zero, natAbs_signedQuanta]

/-! ### Results that need no rounding -/

/-- Rounding a quotient that is a number gives that number. -/
theorem rat?_round {negative : Bool} {num den : ℕ} (positive : 0 < den)
    (exact : signedQuanta negative num = q * den) (hz : z.rat? = some (ofQuanta q)) :
    (round negative num den).rat? = some (ofQuanta q) := by
  obtain ⟨c, n, onGrid, rfl, same⟩ := exists_of_rat?_eq_some hz
  obtain rfl := ofQuanta_inj.1 same
  have magnitude : num = n * den := by
    have := congrArg Int.natAbs exact
    rwa [Int.natAbs_mul, natAbs_signedQuanta, natAbs_signedQuanta, Int.natAbs_natCast] at this
  have sign : signedQuanta negative n = signedQuanta c n := by
    have scaled := signedQuanta_mul negative false n den
    rw [Bool.bne_false, ← magnitude, exact] at scaled
    exact Int.eq_of_mul_eq_mul_right (Int.natCast_ne_zero.2 positive.ne') scaled
  rw [magnitude, round_mul_self negative positive onGrid, rat?_finite, sign]

/-- A sign is exact. -/
theorem rat?_neg (h : x.rat? = some r) : x.neg.rat? = some (-r) := by
  obtain ⟨negative, n, onGrid, rfl, rfl⟩ := exists_of_rat?_eq_some h
  rw [neg, rat?_finite, ofQuanta_neg]
  cases negative with
  | false => rfl
  | true => exact congrArg (fun q => some (ofQuanta q)) (Int.neg_neg _).symm

/-- **A sum that is a number is exact.** Nothing is assumed of the terms but that they are numbers,
so integers below the bound of the significand need no case of their own. -/
theorem rat?_add (hx : x.rat? = some r) (hy : y.rat? = some s) (hz : z.rat? = some (r + s)) :
    (add x y).rat? = some (r + s) := by
  obtain ⟨a, m, onGrid, rfl, rfl⟩ := exists_of_rat?_eq_some hx
  obtain ⟨b, n, onGrid', rfl, rfl⟩ := exists_of_rat?_eq_some hy
  rw [ofQuanta_add] at hz ⊢
  unfold add
  dsimp only
  generalize signedQuanta a m + signedQuanta b n = sum at hz ⊢
  split
  · next none =>
      rw [zero, rat?_finite, none]
      cases a <;> cases b <;> rfl
  · apply rat?_round Nat.one_pos _ hz
    rw [signedQuanta_natAbs, Nat.cast_one, Int.mul_one]

/-- **A difference that is a number is exact.** It is a sum with a number of the opposite sign,
which is exact as well. -/
theorem rat?_sub (hx : x.rat? = some r) (hy : y.rat? = some s) (hz : z.rat? = some (r - s)) :
    (sub x y).rat? = some (r - s) := by
  rw [sub_eq_add_neg] at hz ⊢
  exact rat?_add hx (rat?_neg hy) hz

/-- **A product that is a number is exact.** The exact product is what is rounded, and rounding
keeps what is on the grid. -/
theorem rat?_mul (hx : x.rat? = some r) (hy : y.rat? = some s) (hz : z.rat? = some (r * s)) :
    (mul x y).rat? = some (r * s) := by
  obtain ⟨a, m, onGrid, rfl, rfl⟩ := exists_of_rat?_eq_some hx
  obtain ⟨b, n, onGrid', rfl, rfl⟩ := exists_of_rat?_eq_some hy
  obtain ⟨c, k, -, -, same⟩ := exists_of_rat?_eq_some hz
  rw [same] at hz ⊢
  apply rat?_round one_pos _ hz
  rw [← signedQuanta_mul]
  have unit := cast_one_pos.ne'
  rw [ofQuanta, ofQuanta, ofQuanta, div_mul_div_comm, div_eq_div_iff (mul_ne_zero unit unit) unit,
    ← mul_assoc] at same
  exact_mod_cast mul_right_cancel₀ unit same

/-- **A quotient that is a number is exact.** As for products, the exact quotient is what is
rounded. -/
theorem rat?_div (hx : x.rat? = some r) (hy : y.rat? = some s) (nonzero : s ≠ 0)
    (hz : z.rat? = some (r / s)) : (div x y).rat? = some (r / s) := by
  obtain ⟨a, m, onGrid, rfl, rfl⟩ := exists_of_rat?_eq_some hx
  obtain ⟨b, n, onGrid', rfl, rfl⟩ := exists_of_rat?_eq_some hy
  obtain ⟨c, k, -, -, same⟩ := exists_of_rat?_eq_some hz
  have some : n ≠ 0 := by
    rwa [Ne, ofQuanta_eq_zero_iff, ← Int.natAbs_eq_zero, natAbs_signedQuanta] at nonzero
  rw [same] at hz ⊢
  rw [div, if_neg some]
  apply rat?_round (Nat.pos_of_ne_zero some) _ hz
  have cross : signedQuanta a m * one = signedQuanta c k * signedQuanta b n := by
    have unit := cast_one_pos.ne'
    rw [div_eq_iff nonzero, ofQuanta, ofQuanta, ofQuanta, div_mul_div_comm,
      div_eq_div_iff unit (mul_ne_zero unit unit), ← mul_assoc] at same
    exact_mod_cast mul_right_cancel₀ unit same
  -- The sign of the divisor changes sides.
  calc signedQuanta (a != b) (m * one)
    _ = signedQuanta a m * one * signedQuanta b 1 := by
      rw [← signedQuanta_mul, mul_assoc]
      generalize one = unit
      cases b <;> simp [signedQuanta]
    _ = signedQuanta c k * n := by
      rw [cross, mul_assoc, signedQuanta_mul, bne_self_eq_false, Nat.mul_one]
      rfl

/-! ### Integers -/

/-- Whole numbers up to `2 ^ 53` are magnitudes. -/
theorem onGrid_mul_one (h : n ≤ 2 ^ 53) : OnGrid (n * one) := by
  have own : n < 2 ^ 53 ∨ 2 ∣ n ∧ n < 2 ^ 54 := by
    rcases h.lt_or_eq with less | rfl
    · exact .inl less
    · exact .inr ⟨by decide, by decide⟩
  exact ⟨(Nat.mul_le_mul_right one h).trans_lt (by decide +kernel), spacing_dvd_mul_one own⟩

/-- **Integers that are numbers.** Up to `2 ^ 53` every integer is one, since the gap between
numbers is at most one there. -/
theorem exists_rat?_eq_intCast {n : ℤ} (h : n.natAbs ≤ 2 ^ 53) :
    ∃ z : Binary64, z.rat? = some (n : ℚ) := by
  refine ⟨finite (decide (n < 0)) (n.natAbs * one) (onGrid_mul_one h), ?_⟩
  have value := signedQuanta_mul (decide (n < 0)) false n.natAbs one
  rw [Bool.bne_false, signedQuanta_natAbs] at value
  rw [rat?_finite, ← value]
  exact congrArg some (ofQuanta_mul_one n)

end Abacus.Binary64
