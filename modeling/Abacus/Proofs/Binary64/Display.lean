import Abacus.Binary64.Text
import Abacus.Proofs.Binary64.Whole

/-!
# Displayed numbers

A number is displayed as its literal, whole numbers without their `.0`. The digits are the same in
each case, although whole numbers below `10 ^ 16` are displayed by their exact digits and all others
by the shortest ones.

## Main definitions

* `Binary64.IsLiteral` — the literal of a number, told by its shortest decimal.
* `Binary64.displayLayout` — the layout of literals, whole numbers unmarked.

## Main statements

* `Binary64.isLiteral_literal`, `Binary64.IsLiteral.toList_literal` — the literal of a number is
  written with its shortest decimal, and no other text is.
* `Binary64.display?_finite` — a finite number is displayed by its shortest decimal.
* `Binary64.display?_eq_literal` — a number is displayed as its literal without `.0`.
-/

namespace Abacus.Binary64

open Decimal

variable {quanta n : Nat}

/-! ### Literals -/

/-- `IsLiteral x cs`: the text is the shortest decimal of the number with its sign. The exponent of
the decimal tells the notation: positional from `-4` up to `16`, exclusive, with `.0` behind whole
numbers, and scientific outside. -/
inductive IsLiteral : Binary64 → List Char → Prop
  | nan : IsLiteral .nan ['n', 'a', 'n']
  | infinite (negative : Bool) :
      IsLiteral (.infinite negative) (writeSign negative ++ ['i', 'n', 'f'])
  | zero (negative : Bool) : IsLiteral (.zero negative) (writeSign negative ++ ['0', '.', '0'])
  | positional {negative : Bool} {quanta : Nat} {onGrid : OnGrid quanta} {d : Decimal} :
      quanta ≠ 0 → IsShortest quanta d → -4 ≤ d.leadingExponent → d.leadingExponent < 16 →
      IsLiteral (.finite negative quanta onGrid) (writeSign negative ++
        writePositional ['.', '0'] (significantDigits d.significand) d.leadingExponent)
  | scientific {negative : Bool} {quanta : Nat} {onGrid : OnGrid quanta} {d : Decimal} :
      quanta ≠ 0 → IsShortest quanta d → d.leadingExponent < -4 ∨ 16 ≤ d.leadingExponent →
      IsLiteral (.finite negative quanta onGrid) (writeSign negative ++
        writeScientific (significantDigits d.significand) d.leadingExponent)

theorem literal_finite (negative : Bool) (onGrid : OnGrid quanta) :
    (finite negative quanta onGrid).literal.toList =
      writeSign negative ++ (shortestDecimal quanta).write literalLayout := by
  rw [literal, writeWith, String.toList_ofList]

/-- **The literal of a number** is written with its shortest decimal. What remains to be shown of
that is that no decimal with fewer digits is read as the number. -/
theorem isLiteral_literal (x : Binary64) : IsLiteral x x.literal.toList := by
  cases x with
  | nan => exact .nan
  | infinite negative =>
      rw [literal, writeWith, String.toList_ofList]
      exact .infinite negative
  | finite negative quanta onGrid =>
      rw [literal_finite]
      by_cases zero : quanta = 0
      · subst zero
        obtain ⟨e, zero⟩ := exists_shortestDecimal_zero
        rw [zero]
        exact .zero negative
      · have shortest := isShortest_shortestDecimal onGrid
        have bound : literalLayout.positionalBelow = 16 := rfl
        rw [write_of_ne_zero (shortest.significand_ne_zero zero)]
        split
        · next range => exact .positional zero shortest range.1 range.2
        · next range => exact .scientific zero shortest (by omega)

/-- **A number has one literal.** So whatever is shown to be a literal of the number is the text
that is written. -/
theorem IsLiteral.toList_literal {x : Binary64} {cs : List Char} (h : IsLiteral x cs) :
    x.literal.toList = cs := by
  cases h with
  | nan => rfl
  | infinite negative => cases negative <;> rfl
  | zero negative =>
      obtain ⟨e, zero⟩ := exists_shortestDecimal_zero
      rw [Binary64.zero, literal_finite, zero]
      rfl
  | @positional negative quanta onGrid d nonzero shortest low high =>
      have same := (isShortest_shortestDecimal onGrid).unique shortest
      rw [literal_finite, write_congr _ same,
        write_of_ne_zero (shortest.significand_ne_zero nonzero), literalLayout, if_pos ⟨low, high⟩]
  | @scientific negative quanta onGrid d nonzero shortest outside =>
      have same := (isShortest_shortestDecimal onGrid).unique shortest
      have bound : literalLayout.positionalBelow = 16 := rfl
      rw [literal_finite, write_congr _ same,
        write_of_ne_zero (shortest.significand_ne_zero nonzero), bound, if_neg (by omega)]

/-! ### Displayed numbers -/

/-- The layout of literals, whole numbers unmarked. It is what display without a number of digits
comes to. -/
def displayLayout : Decimal.Layout := { literalLayout with wholeMark := [] }

theorem literalLayout_eq : literalLayout = ⟨(16 : Nat), ['.', '0']⟩ := rfl

theorem displayLayout_eq : displayLayout = ⟨(16 : Nat), []⟩ := rfl

theorem natAbs_signedQuanta (negative : Bool) (n : Nat) : (signedQuanta negative n).natAbs = n := by
  cases negative with
  | false => exact Int.natAbs_natCast n
  | true => exact (Int.natAbs_neg _).trans (Int.natAbs_natCast n)

theorem toInt?_of_whole {negative : Bool} {onGrid : OnGrid quanta} (whole : quanta = n * one) :
    (finite negative quanta onGrid).toInt? = some (signedQuanta negative n) := by
  rw [toInt?, whole, if_pos (Nat.mul_mod_left n one), Nat.mul_div_cancel n one_pos]

/-- A whole number below `10 ^ 16` is displayed as its digits. -/
theorem display?_of_whole {negative : Bool} {onGrid : OnGrid quanta} (h : n < 10 ^ 16)
    (whole : quanta = n * one) :
    (finite negative quanta onGrid).display? none =
      some (String.ofList (writeSign negative ++ digits n)) := by
  have bound : n < displayedWhole := h
  have zero_iff : quanta = 0 ↔ n = 0 := by
    rw [whole, Nat.mul_eq_zero, or_iff_left one_pos.ne']
  rw [display?]
  split
  · next minus =>
      rw [Bool.and_eq_true, isZero, beq_iff_eq, zero_iff, isNegative] at minus
      obtain ⟨rfl, rfl⟩ := minus
      rfl
  · next plain =>
      rw [Bool.and_eq_true, isZero, beq_iff_eq, zero_iff, isNegative] at plain
      have sign : decide (signedQuanta negative n < 0) = negative := by
        cases negative with
        | false => simp [signedQuanta]
        | true => simpa [signedQuanta, Nat.pos_iff_ne_zero] using plain
      rw [toInt?_of_whole whole]
      dsimp only
      rw [natAbs_signedQuanta, if_pos bound, sign]

/-- All other finite numbers are displayed as their literals. -/
theorem display?_of_not_whole {negative : Bool} {onGrid : OnGrid quanta}
    (h : ¬ ∃ n : Nat, n < 10 ^ 16 ∧ quanta = n * one) :
    (finite negative quanta onGrid).display? none =
      some (finite negative quanta onGrid).literal := by
  have nonzero : quanta ≠ 0 := fun zero => h ⟨0, by decide, zero.trans (Nat.zero_mul one).symm⟩
  rw [display?, if_neg (by simp [isZero, nonzero]), toInt?]
  by_cases whole : quanta % one = 0
  · have large : ¬ quanta / one < displayedWhole := fun small =>
      h ⟨quanta / one, small, (Nat.div_mul_cancel (Nat.dvd_of_mod_eq_zero whole)).symm⟩
    rw [if_pos whole]
    dsimp only
    rw [natAbs_signedQuanta, if_neg large]
  · rw [if_neg whole]

/-- **A finite number is displayed by its shortest decimal,** whole numbers unmarked. Whole numbers
below the bound are written as integers by a way of their own, which comes to the same. -/
theorem display?_finite (negative : Bool) (onGrid : OnGrid quanta) :
    (finite negative quanta onGrid).display? none =
      some (String.ofList (writeSign negative ++
        (shortestDecimal quanta).write displayLayout)) := by
  by_cases whole : ∃ n : Nat, n < 10 ^ 16 ∧ quanta = n * one
  · obtain ⟨n, bound, value⟩ := whole
    have shortest := (toRat_shortestDecimal_eq_natCast_iff onGrid bound).2 value
    rw [display?_of_whole bound value, displayLayout_eq, write_eq_digits (by decide) bound shortest,
      List.append_nil]
  · rw [display?_of_not_whole whole, ← String.ofList_toList (s := literal _), literal_finite,
      literalLayout_eq, displayLayout_eq, write_eq_unmarked]
    rintro ⟨n, bound, value⟩
    exact whole ⟨n, bound, (toRat_shortestDecimal_eq_natCast_iff onGrid bound).1 value⟩

theorem not_suffix_writeSign_append (negative : Bool) {cs : List Char}
    (h : ¬ ['.', '0'] <:+ cs) : ¬ ['.', '0'] <:+ writeSign negative ++ cs := by
  cases negative with
  | false => exact h
  | true => exact fun suffix => (List.suffix_cons_iff.1 suffix).elim (fun same => by cases same) h

/-- Taking `.0` off the end of a literal is the same as not marking whole numbers. -/
theorem withoutMark_literal_finite (negative : Bool) (onGrid : OnGrid quanta) :
    withoutMark (finite negative quanta onGrid).literal.toList =
      writeSign negative ++ (shortestDecimal quanta).write displayLayout := by
  rw [literal_finite, literalLayout_eq, displayLayout_eq]
  by_cases whole : ∃ n : Nat, n < 10 ^ 16 ∧ (shortestDecimal quanta).toRat = n
  · obtain ⟨n, bound, value⟩ := whole
    rw [write_eq_digits (by decide) bound value, write_eq_digits (by decide) bound value,
      List.append_nil, ← List.append_assoc, withoutMark_append]
  · rw [write_eq_unmarked whole, withoutMark_of_not_suffix]
    exact not_suffix_writeSign_append negative (not_suffix_write _ _)

/-- **A number is displayed as its literal** without a `.0` at the end. -/
theorem display?_eq_literal (x : Binary64) :
    (∀ cs, IsLiteral x cs ↔ x.literal.toList = cs) ∧
      x.display? none = some (String.ofList (withoutMark x.literal.toList)) := by
  refine ⟨fun cs => ⟨IsLiteral.toList_literal, ?_⟩, ?_⟩
  · rintro rfl
    exact isLiteral_literal x
  · cases x with
    | nan => rfl
    | infinite negative => cases negative <;> rfl
    | finite negative quanta onGrid => rw [display?_finite, withoutMark_literal_finite]

end Abacus.Binary64
