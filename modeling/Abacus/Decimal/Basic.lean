import Abacus.Rounding

/-!
# Decimal numbers

A decimal is a natural significand times a power of ten. Signs are kept apart, by the callers.

## Main definitions

* `Decimal` — the significand and the exponent.
* `Decimal.leadingExponent` — the power of ten of the leading digit.
* `Decimal.roundTo` — the decimal rounded to a number of significant digits.
* `Decimal.neighbours` — the two nearest multiples of a power of ten.
* `Decimal.ofDigits` — the number a run of digits denotes.

## Main statements

* `Decimal.ofDigits_digits` — the digits of a number denote it.
-/

namespace Abacus

/-- The number `significand * 10 ^ exponent`. Many of them are the same number, since zeros at the
end of a significand may as well be counted by the exponent; they are told apart all the same. -/
structure Decimal where
  significand : Nat
  exponent : Int
  deriving DecidableEq, Repr

namespace Decimal

/-- The decimal digits of a natural number, leading digit first; `0` has one. -/
def digits (n : Nat) : List Char := Nat.toDigits 10 n

/-- The number of decimal digits. Zero has one, so this is never zero. -/
def digitCount (n : Nat) : Nat := (digits n).length

/-- The value of a digit from `'0'` to `'9'`. -/
def digitValue (c : Char) : Nat := c.toNat - '0'.toNat

/-- The number denoted by a run of digits. Zeros in front do not matter, and an empty run is
zero. -/
def ofDigits (cs : List Char) : Nat := cs.foldl (fun n c => 10 * n + digitValue c) 0

theorem ofDigits_append_singleton (cs : List Char) (c : Char) :
    ofDigits (cs ++ [c]) = 10 * ofDigits cs + digitValue c := by
  simp [ofDigits]

theorem digitValue_digitChar {n : Nat} (h : n < 10) : digitValue (Nat.digitChar n) = n := by
  revert n
  decide +kernel

/-- The digits of a number denote it. -/
theorem ofDigits_digits (n : Nat) : ofDigits (digits n) = n := by
  induction n using Nat.strongRecOn with
  | _ n ih =>
    unfold digits at ih ⊢
    by_cases h : n < 10
    · rw [Nat.toDigits_of_lt_base h]
      simp [ofDigits, digitValue_digitChar h]
    · rw [Nat.toDigits_of_base_le (by decide) (by omega), ofDigits_append_singleton,
        ih (n / 10) (by omega), digitValue_digitChar (by omega)]
      omega

/-- The power of ten that the leading digit counts. It decides between positional and scientific
notation. -/
def leadingExponent (d : Decimal) : Int := d.exponent + digitCount d.significand - 1

/-- The decimal rounded half to even to a power of ten `dropped` above its own. Rounding up may
carry into a digit more than there was before. -/
def roundAt (dropped : Nat) (d : Decimal) : Decimal :=
  ⟨roundQuotient d.significand (Nat.pow 10 dropped), d.exponent + dropped⟩

/-- The decimal rounded half to even to at most `count` significant digits. A significand of no
more digits is kept. -/
def roundTo (count : Nat) (d : Decimal) : Decimal := d.roundAt (digitCount d.significand - count)

/-- The two neighbours of a decimal among the multiples of a power of ten `dropped` above its own,
the nearer one first. -/
def neighbours (dropped : Nat) (d : Decimal) : List Decimal :=
  let nearer := d.roundAt dropped
  let floor := d.significand / Nat.pow 10 dropped
  let other := if nearer.significand = floor then floor + 1 else floor
  [nearer, { nearer with significand := other }]

end Decimal

end Abacus
