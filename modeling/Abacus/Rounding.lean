/-!
# Rounding a quotient to a whole number

The one rounding rule of this library: a quotient goes to the nearest whole number, and a quotient
half-way between two goes to the even one. Binary grids and decimal grids both round by it.

## Main definitions

* `roundQuotient` — the rounded quotient of two natural numbers.

## Main statements

* `roundQuotient_mul_self` — an exact quotient is kept.
* `roundQuotient_le` — the rounded quotient exceeds the floor by at most one.
* `roundQuotient_error` — the rounded quotient is within half a unit.
-/

namespace Abacus

/-- The whole number nearest to `num / den`; of two equally near, the even one. -/
def roundQuotient (num den : Nat) : Nat :=
  let floor := num / den
  let rest := num % den
  if 2 * rest < den then floor
  else if den < 2 * rest then floor + 1
  else if floor % 2 = 0 then floor
  else floor + 1

theorem roundQuotient_mul_self (n : Nat) {den : Nat} (h : 0 < den) :
    roundQuotient (n * den) den = n := by
  simp [roundQuotient, Nat.mul_div_cancel n h, h]

theorem div_le_roundQuotient (num den : Nat) : num / den ≤ roundQuotient num den := by
  unfold roundQuotient
  dsimp only
  repeat' split
  all_goals omega

theorem roundQuotient_le (num den : Nat) : roundQuotient num den ≤ num / den + 1 := by
  unfold roundQuotient
  dsimp only
  repeat' split
  all_goals omega

/-- Twice the distance between `num` and the multiple of `den` that it is rounded to is at most
`den`. -/
theorem roundQuotient_error (num : Nat) {den : Nat} (h : 0 < den) :
    2 * num ≤ 2 * (roundQuotient num den * den) + den ∧
      2 * (roundQuotient num den * den) ≤ 2 * num + den := by
  have hsplit := Nat.div_add_mod num den
  have hcomm : den * (num / den) = num / den * den := Nat.mul_comm ..
  have hlt := Nat.mod_lt num h
  have hsucc : (num / den + 1) * den = num / den * den + den := Nat.succ_mul ..
  unfold roundQuotient
  dsimp only
  repeat' split
  all_goals omega

end Abacus
