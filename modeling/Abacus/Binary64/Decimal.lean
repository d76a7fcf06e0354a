import Abacus.Binary64.Basic
import Abacus.Decimal.Basic

/-!
# Binary64 numbers and decimals

Every finite number is a decimal: a quantum is `5 ^ 1074 / 10 ^ 1074`. Reading a decimal rounds it
once to the nearest number. The shortest decimal of a number is the one of fewest digits, at most
17, that reads back as the number, and of these the nearest to it.

## Main definitions

* `Binary64.ofDecimal` — the number nearest to a decimal.
* `Binary64.exactDecimal` — the decimal equal to a magnitude in quanta.
* `Binary64.shortestDecimal` — the shortest decimal that reads back.

## Main statements

* `Binary64.ofDecimal_exactDecimal` — the exact decimal of a number reads back as the number.
* `Binary64.ofDecimal_shortestDecimal` — and so does the shortest.
-/

namespace Abacus.Binary64

/-- The number nearest to a decimal with a sign, ties to even. Decimals far beyond the largest
number are infinite and those far below the quantum are zero, whatever their digits. -/
def ofDecimal (negative : Bool) (d : Decimal) : Binary64 :=
  if d.significand = 0 then zero negative
  -- Powers of ten are computed only for decimals that may be finite and not zero: above 10 ^ 400
  -- and, as 8 < 10, below 2 ^ -1199 the answer is known.
  else if 400 < d.exponent then infinite negative
  else if 3 * d.exponent + d.significand.log2 < -1200 then zero negative
  else if 0 ≤ d.exponent then nearest negative (d.significand * Nat.pow 10 d.exponent.toNat) 1
  else nearest negative d.significand (Nat.pow 10 (-d.exponent).toNat)

theorem ofDecimal_zero (negative : Bool) (exponent : Int) :
    ofDecimal negative ⟨0, exponent⟩ = zero negative := by
  simp [ofDecimal]

@[simp]
theorem isNegative_ofDecimal (negative : Bool) (d : Decimal) :
    (ofDecimal negative d).isNegative = negative := by
  unfold ofDecimal nearest
  split
  · rfl
  split
  · rfl
  split
  · rfl
  split
  · exact isNegative_round ..
  · exact isNegative_round ..

/-- The decimal equal to a magnitude in quanta, with all its digits. It is what is rounded to a
number of digits, so that ties are ties of the number and not of another text of it. -/
def exactDecimal (quanta : Nat) : Decimal := ⟨quanta * Nat.pow 5 1074, -1074⟩

/-- Where `scale` units of a decimal place make a quantum, so many units for each quantum of a
magnitude read back as the magnitude. -/
theorem ofDecimal_mul_scale (negative : Bool) {quanta scale places : Nat} (h : OnGrid quanta)
    (hunits : Nat.pow 10 places = scale * one) (hplaces : 0 < places)
    (hlarge : 3 * places ≤ 1200 + scale.log2) :
    ofDecimal negative ⟨quanta * scale, -places⟩ = finite negative quanta h := by
  have hscale : scale ≠ 0 := by
    rintro rfl
    exact Nat.ne_of_gt (Nat.pow_pos (by decide : 0 < 10)) (hunits.trans (Nat.zero_mul one))
  by_cases hzero : quanta = 0
  · subst hzero
    rw [Nat.zero_mul, ofDecimal_zero, zero]
  · have hsignificand := Nat.mul_ne_zero hzero hscale
    have hlog : scale.log2 ≤ (quanta * scale).log2 :=
      (Nat.le_log2 hsignificand).2 (Nat.le_trans (Nat.log2_self_le hscale)
        (Nat.le_mul_of_pos_left _ (Nat.pos_of_ne_zero hzero)))
    unfold ofDecimal
    simp only
    rw [if_neg hsignificand, if_neg (by omega), if_neg (by omega), if_neg (by omega), nearest,
      Int.neg_neg, Int.toNat_natCast, hunits, Nat.mul_assoc]
    exact round_mul_self negative (Nat.mul_pos (Nat.pos_of_ne_zero hscale) one_pos) h

/-- The exact decimal of a magnitude reads back as the magnitude. So the search for a shorter one
has something to fall back on. -/
theorem ofDecimal_exactDecimal (negative : Bool) {quanta : Nat} (h : OnGrid quanta) :
    ofDecimal negative (exactDecimal quanta) = finite negative quanta h :=
  ofDecimal_mul_scale negative h (by decide +kernel) (by decide) (by decide +kernel)

/-- The decimal of fewest significant digits, at most 17, that reads back as the magnitude; the
nearer of two. Where there is none it is the exact decimal. -/
def shortestDecimal (quanta : Nat) : Decimal :=
  let exact := exactDecimal quanta
  let digits := Decimal.digitCount exact.significand
  let readsBack (d : Decimal) : Bool :=
    match ofDecimal false d with
    | finite _ n _ => n == quanta
    | _ => false
  let best := (List.range' 1 17).findSome? fun count =>
    (exact.neighbours (digits - count)).find? readsBack
  best.getD exact

/-- The shortest decimal of a magnitude reads back as the magnitude. That none is shorter is another
matter. -/
theorem ofDecimal_shortestDecimal {quanta : Nat} (h : OnGrid quanta) :
    ofDecimal false (shortestDecimal quanta) = finite false quanta h := by
  unfold shortestDecimal
  dsimp only
  generalize hbest : List.findSome? _ _ = best
  cases best with
  | none => exact ofDecimal_exactDecimal false h
  | some d =>
    obtain ⟨count, -, hfound⟩ := List.exists_of_findSome?_eq_some hbest
    have hreads := List.find?_some hfound
    have hsign := isNegative_ofDecimal false d
    split at hreads
    · simp_all [isNegative]
    · simp at hreads

end Abacus.Binary64
