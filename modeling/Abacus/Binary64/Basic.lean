import Abacus.Rounding

/-!
# Binary64 numbers

The 64-bit binary floating-point numbers of IEEE 754, with one NaN. Every finite one is a whole
number of quanta, the quantum being `2 ^ -1074`, so a finite number is a sign and a natural number
of quanta on the grid: at most 53 significant bits, and below `2 ^ 1024`. Two values of the type
are equal exactly when they are the same number with the same sign of zero.

## Main definitions

* `Binary64` — NaN, the infinities, and the finite numbers.
* `Binary64.OnGrid` — the magnitudes of finite numbers, in quanta.
* `Binary64.round` — the number nearest to a quotient of quanta, ties to even.
* `Binary64.nearest` — the number nearest to a quotient.
* `Binary64.neg`, `add`, `sub`, `mul`, `div` — arithmetic: the exact result, rounded once.

## Main statements

* `Binary64.spacing_dvd_roundToGrid` — rounding ends on the grid.
* `Binary64.round_mul_self` — a number that is on the grid is rounded to itself.
-/

namespace Abacus

namespace Binary64

/-- The gap, in quanta, between a magnitude and the next one above it on the grid: magnitudes have
53 significant bits, and the smallest gap is one quantum. -/
def spacing (quanta : Nat) : Nat := Nat.pow 2 (quanta.log2 - 52)

/-- The number of quanta in one. A natural number `n` is `n * one` quanta. -/
def one : Nat := Nat.pow 2 1074

/-- The least power of two that is too large, in quanta. Rounding that gets there makes a number
infinite. -/
def limit : Nat := Nat.pow 2 2098

/-- The magnitudes of finite numbers: below the limit, and a multiple of the local gap. Magnitudes
with fewer than 53 bits, the subnormal ones among them, are no case of their own, since no gap is
less than a quantum. -/
def OnGrid (quanta : Nat) : Prop := quanta < limit ∧ spacing quanta ∣ quanta

instance (quanta : Nat) : Decidable (OnGrid quanta) :=
  inferInstanceAs (Decidable (_ ∧ _))

theorem spacing_pos (quanta : Nat) : 0 < spacing quanta := by
  rw [spacing, Nat.pow_eq]
  exact Nat.two_pow_pos _

theorem one_pos : 0 < one := by decide +kernel

theorem limit_pos : 0 < limit := by decide +kernel

theorem onGrid_zero : OnGrid 0 := ⟨limit_pos, Nat.dvd_zero _⟩

end Binary64

/-- A binary64 number. NaN has neither sign nor payload, since nothing that is computed here tells
two of them apart. A finite number comes with the proof that it is on the grid, so that no magnitude
can be had that would still have to be rounded. -/
inductive Binary64 where
  | nan
  | infinite (negative : Bool)
  | finite (negative : Bool) (quanta : Nat) (onGrid : Binary64.OnGrid quanta)
  deriving DecidableEq

namespace Binary64

/-- The zero of a sign. -/
def zero (negative : Bool) : Binary64 := finite negative 0 onGrid_zero

/-- The magnitude on the grid nearest to `num / den` quanta, ties to even; it may be the limit or
more. -/
def roundToGrid (num den : Nat) : Nat :=
  let gap := spacing (num / den)
  roundQuotient num (den * gap) * gap

/-- Rounding ends on the grid: a significand that is rounded up to `2 ^ 53` is a power of two. So
every result of rounding is a number, and nothing has to be rounded twice. -/
theorem spacing_dvd_roundToGrid (num den : Nat) :
    spacing (roundToGrid num den) ∣ roundToGrid num den := by
  unfold roundToGrid
  dsimp only
  generalize he : (num / den).log2 - 52 = e
  have hgap : spacing (num / den) = 2 ^ e := by rw [spacing, he, Nat.pow_eq]
  rw [hgap]
  generalize hm : roundQuotient num (den * 2 ^ e) = m
  have hfloor : num / den < 2 ^ (53 + e) := by
    by_cases hq : num / den = 0
    · rw [hq]; exact Nat.two_pow_pos _
    · exact (Nat.log2_lt hq).1 (by omega)
  have hscaled : num / (den * 2 ^ e) < 2 ^ 53 := by
    rw [← Nat.div_div_eq_div_mul, Nat.div_lt_iff_lt_mul (Nat.two_pow_pos e), ← Nat.pow_add]
    exact hfloor
  have hle : m ≤ 2 ^ 53 := by
    have := roundQuotient_le num (den * 2 ^ e)
    omega
  unfold spacing
  rw [Nat.pow_eq]
  rcases Nat.lt_or_eq_of_le hle with hlt | rfl
  · have hlog : (m * 2 ^ e).log2 - 52 ≤ e := by
      by_cases hz : m * 2 ^ e = 0
      · rw [hz]; simp
      · have : (m * 2 ^ e).log2 < 53 + e := by
          rw [Nat.log2_lt hz, Nat.pow_add]
          exact Nat.mul_lt_mul_of_pos_right hlt (Nat.two_pow_pos e)
        omega
    exact Nat.dvd_trans (Nat.pow_dvd_pow 2 hlog) (Nat.dvd_mul_left _ _)
  · rw [← Nat.pow_add, Nat.log2_two_pow]
    exact Nat.pow_dvd_pow 2 (by omega)

/-- A magnitude on the grid is rounded to itself. -/
theorem roundToGrid_mul_self {quanta den : Nat} (hden : 0 < den) (h : spacing quanta ∣ quanta) :
    roundToGrid (quanta * den) den = quanta := by
  unfold roundToGrid
  rw [Nat.mul_div_cancel quanta hden]
  obtain ⟨significand, hsplit⟩ := h
  have hscaled : quanta * den = significand * (den * spacing quanta) := by
    rw [Nat.mul_left_comm, Nat.mul_comm significand, ← hsplit, Nat.mul_comm]
  dsimp only
  rw [hscaled, roundQuotient_mul_self _ (Nat.mul_pos hden (spacing_pos quanta)), Nat.mul_comm,
    ← hsplit]

/-- The number nearest to `num / den` quanta with a sign, ties to even. Magnitudes that round to
the limit or more are infinite. -/
def round (negative : Bool) (num den : Nat) : Binary64 :=
  if h : roundToGrid num den < limit then
    finite negative (roundToGrid num den) ⟨h, spacing_dvd_roundToGrid num den⟩
  else infinite negative

/-- A number that is on the grid is rounded to itself. -/
theorem round_mul_self (negative : Bool) {quanta den : Nat} (hden : 0 < den) (h : OnGrid quanta) :
    round negative (quanta * den) den = finite negative quanta h := by
  have hgrid := roundToGrid_mul_self hden h.2
  simp only [round, hgrid, h.1, dif_pos]

/-- The number nearest to `num / den` with a sign. It is infinite where rounding without a bound
would get to the limit. -/
def nearest (negative : Bool) (num den : Nat) : Binary64 := round negative (num * one) den

/-- The number nearest to an integer. Zero is the positive one. -/
def ofInt (n : Int) : Binary64 := nearest (n < 0) n.natAbs 1

/-- Neither NaN nor infinite. -/
def isFinite : Binary64 → Bool
  | finite .. => true
  | _ => false

/-- A zero of either sign. The two are told apart by their sign only. -/
def isZero : Binary64 → Bool
  | finite _ quanta _ => quanta == 0
  | _ => false

/-- The sign; NaN has none. -/
def isNegative : Binary64 → Bool
  | nan => false
  | infinite negative | finite negative _ _ => negative

@[simp]
theorem isNegative_round (negative : Bool) (num den : Nat) :
    (round negative num den).isNegative = negative := by
  unfold round
  split <;> rfl

/-- The number of the opposite sign. It is exact, and turns the two zeros into each other. -/
def neg : Binary64 → Binary64
  | nan => nan
  | infinite negative => infinite !negative
  | finite negative quanta h => finite (!negative) quanta h

@[simp]
theorem neg_neg (x : Binary64) : x.neg.neg = x := by
  cases x <;> simp [neg]

/-- The sign of a zero does not matter to whether it divides. -/
@[simp]
theorem isZero_neg (x : Binary64) : x.neg.isZero = x.isZero := by
  cases x <;> rfl

/-- A magnitude with its sign, in quanta. Both zeros are the same here, so results of zero have to
get their sign elsewhere. -/
def signedQuanta (negative : Bool) (quanta : Nat) : Int := if negative then -quanta else quanta

/-- The sum, rounded once: the exact sum of two finite numbers is a whole number of quanta, so there
is nothing to lose before. An exact sum of zero is negative only if both terms are. -/
def add : Binary64 → Binary64 → Binary64
  | nan, _ | _, nan => nan
  | infinite a, infinite b => if a = b then infinite a else nan
  | infinite a, finite .. => infinite a
  | finite .., infinite b => infinite b
  | finite a m _, finite b n _ =>
    let sum := signedQuanta a m + signedQuanta b n
    if sum = 0 then zero (a && b) else round (sum < 0) sum.natAbs 1

/-- The rounded difference. A difference is a sum, the signs of zeros included. -/
def sub (x y : Binary64) : Binary64 := add x (neg y)

/-- The rounded product. A zero times an infinity is NaN; any other product has the sign of its
factors together, also if it is a zero. -/
def mul : Binary64 → Binary64 → Binary64
  | nan, _ | _, nan => nan
  | infinite a, infinite b => infinite (a != b)
  | infinite a, finite b n _ | finite b n _, infinite a =>
    if n = 0 then nan else infinite (a != b)
  | finite a m _, finite b n _ => round (a != b) (m * n) one

/-- The rounded quotient. A zero divides a non-zero number into an infinity, and the quotient of
two zeros or of two infinities is NaN. -/
def div : Binary64 → Binary64 → Binary64
  | nan, _ | _, nan | infinite _, infinite _ => nan
  | infinite a, finite b _ _ => infinite (a != b)
  | finite a _ _, infinite b => zero (a != b)
  | finite a m _, finite b n _ =>
    if n = 0 then if m = 0 then nan else infinite (a != b)
    else round (a != b) (m * one) n

/-- The integer a number is equal to, if it is one. Large numbers all are. -/
def toInt? : Binary64 → Option Int
  | finite negative quanta _ =>
    if quanta % one = 0 then some (signedQuanta negative (quanta / one)) else none
  | _ => none

end Binary64

end Abacus
