import Abacus.Proofs.Decimal.Grid

/-!
# Whole numbers in texts

The text of a decimal depends on its value only. A whole number that is written positionally is
written as its digits and the mark of the layout. No other text has the mark, and without the mark
no text ends in `.0`, so taking `.0` off the end of a text takes off just the mark.

## Main definitions

* `Decimal.withoutMark` — a text without a `.0` at its end.

## Main statements

* `Decimal.write_congr` — decimals of one value have one text.
* `Decimal.write_eq_digits` — the text of a whole number.
* `Decimal.write_eq_unmarked` — the texts of other numbers have no mark.
* `Decimal.not_suffix_write` — only a mark ends in `.0`.
-/

namespace Abacus.Decimal

open Numeral

variable {d d' : Decimal} {below n : Nat} {mark : List Char}

/-! ### Values -/

theorem toRat_eq_zero_iff : d.toRat = 0 ↔ d.significand = 0 := by
  rw [toRat, mul_eq_zero_iff_right (ten_zpow_pos _).ne', Nat.cast_eq_zero]

theorem toRat_natCast (n : Nat) : (Decimal.mk n 0).toRat = n := by
  rw [toRat, zpow_zero, mul_one]

/-- Where a value has two exponents, the significand of the smaller one ends in zeros. -/
theorem significantDigits_eq_of_le (le : d.exponent ≤ d'.exponent) (h : d.toRat = d'.toRat) :
    significantDigits d.significand = significantDigits d'.significand := by
  obtain ⟨m, e⟩ := d
  obtain ⟨m', e'⟩ := d'
  obtain ⟨k, rfl⟩ := Int.le.dest le
  rw [toRat_add, toRat, mul_left_inj' (ten_zpow_pos e).ne', Nat.cast_inj] at h
  dsimp only at h ⊢
  by_cases zero : m' = 0
  · rw [h, zero, Nat.zero_mul]
  · rw [h, significantDigits_mul_pow zero]

/-- Decimals of one value have the same significant digits. -/
theorem significantDigits_congr (h : d.toRat = d'.toRat) :
    significantDigits d.significand = significantDigits d'.significand :=
  (le_total d.exponent d'.exponent).elim (fun le => significantDigits_eq_of_le le h)
    (fun le => (significantDigits_eq_of_le le h.symm).symm)

/-- The notation is told by the power of ten that the leading digit counts. -/
theorem write_of_ne_zero {layout : Layout} (h : d.significand ≠ 0) :
    d.write layout =
      if -4 ≤ d.leadingExponent ∧ d.leadingExponent < layout.positionalBelow then
        writePositional layout.wholeMark (significantDigits d.significand) d.leadingExponent
      else writeScientific (significantDigits d.significand) d.leadingExponent := by
  rw [write]
  simp only [h, if_false]

/-- **Decimals of one value have one text.** What is written are the digits without zeros at the end
and the leading exponent, and neither depends on how the value is given. -/
theorem write_congr (layout : Layout) (h : d.toRat = d'.toRat) :
    d.write layout = d'.write layout := by
  have digits := significantDigits_congr h
  by_cases zero : d.toRat = 0
  · have zero' : d'.significand = 0 := toRat_eq_zero_iff.1 (h ▸ zero)
    rw [write, write, toRat_eq_zero_iff.1 zero, zero']
    rfl
  · have nonzero := mt toRat_eq_zero_iff.2 zero
    have nonzero' : d'.significand ≠ 0 := mt toRat_eq_zero_iff.2 (h ▸ zero)
    have leading : d.leadingExponent = d'.leadingExponent :=
      leadingExponent_eq nonzero (h ▸ zpow_leadingExponent_le nonzero') (h ▸ toRat_lt_zpow d')
    rw [write_of_ne_zero nonzero, write_of_ne_zero nonzero', digits, leading]

/-- Where the digits end before a place or at it, the decimal is a multiple of that place. -/
theorem exists_toRat_eq_mul_pow {k : Nat} (h : d.significand ≠ 0)
    (short : d.size + k ≤ d.leadingExponent + 1) : ∃ n : Nat, d.toRat = (n * 10 ^ k : ℕ) := by
  obtain ⟨n, value, -⟩ := exists_toRat_eq_of_size h
  obtain ⟨j, exponent⟩ := Int.le.dest short
  have places : d.leadingExponent + 1 - d.size = (j + k : ℕ) := by omega
  rw [places, zpow_natCast] at value
  refine ⟨n * 10 ^ j, ?_⟩
  rw [value, Nat.mul_assoc, ← Nat.pow_add]
  push_cast
  rfl

/-! ### Whole numbers -/

/-- The digits of a whole number, and the mark. -/
theorem write_natCast (positive : 0 < below) (h : n < 10 ^ below) :
    (Decimal.mk n 0).write ⟨below, mark⟩ = digits n ++ mark := by
  by_cases zero : n = 0
  · rw [zero, write]
    simp [positive, writePositional, significantDigits, digits]
  · obtain ⟨k, split⟩ := digits_eq_append zero
    have count : digitCount n = (significantDigits n).length + k := by
      rw [digitCount, split, List.length_append, List.length_replicate]
    have some : 0 < (significantDigits n).length :=
      List.length_pos_of_ne_nil (isDigits_significantDigits n).1
    have most := (digitCount_le_iff positive).2 h
    rw [write_of_ne_zero zero]
    simp only [leadingExponent, Int.zero_add]
    rw [if_pos (by omega), writePositional, if_neg (by omega)]
    dsimp only
    rw [if_pos (by omega), split]
    congr 3
    omega

/-- **The text of a whole number** that is written positionally. The decimal may have any exponent;
only its value matters. -/
theorem write_eq_digits (positive : 0 < below) (h : n < 10 ^ below) (value : d.toRat = n) :
    d.write ⟨below, mark⟩ = digits n ++ mark := by
  rw [write_congr _ (value.trans (toRat_natCast n).symm), write_natCast positive h]

/-- **The texts of other numbers have no mark.** -/
theorem write_eq_unmarked (other : ¬ ∃ n : Nat, n < 10 ^ below ∧ d.toRat = n) :
    d.write ⟨below, mark⟩ = d.write ⟨below, []⟩ := by
  have nonzero : d.significand ≠ 0 := by
    intro zero
    refine other ⟨0, Nat.pow_pos (by decide), ?_⟩
    rw [Nat.cast_zero, toRat_eq_zero_iff, zero]
  rw [write_of_ne_zero nonzero, write_of_ne_zero nonzero]
  dsimp only
  split
  · next range =>
      rw [writePositional, writePositional]
      split
      · rfl
      · dsimp only
        split
        · next short =>
            -- A whole number below the bound.
            obtain ⟨n, value⟩ := exists_toRat_eq_mul_pow (k := 0) nonzero (by rw [size]; omega)
            rw [Nat.pow_zero, Nat.mul_one] at value
            have bound : (n : ℚ) < 10 ^ (below : ℤ) := by
              rw [← value]
              exact (toRat_lt_zpow d).trans_le (zpow_le_zpow_right₀ (by norm_num) (by omega))
            rw [zpow_natCast] at bound
            exact absurd ⟨n, by exact_mod_cast bound, value⟩ other
        · rfl
  · rfl

/-! ### The end of a text -/

/-- The text without a `.0` at its end. A text that ends otherwise is left as it is, `.00`
included. -/
def withoutMark (cs : List Char) : List Char := (cs.dropSuffix? ['.', '0']).getD cs

variable {cs ds : List Char} {leading : Int}

theorem withoutMark_append (cs : List Char) : withoutMark (cs ++ ['.', '0']) = cs := by
  have found : (cs ++ ['.', '0']).dropSuffix? ['.', '0'] = some cs :=
    List.dropSuffix?_eq_some_iff.2 ⟨_, rfl, beq_self_eq_true _⟩
  rw [withoutMark, found, Option.getD_some]

theorem withoutMark_of_not_suffix (h : ¬ ['.', '0'] <:+ cs) : withoutMark cs = cs := by
  have nothing : cs.dropSuffix? ['.', '0'] = none := by
    rw [Option.eq_none_iff_forall_ne_some]
    intro front found
    obtain ⟨mark, split, same⟩ := List.dropSuffix?_eq_some_iff.1 found
    rw [eq_of_beq same] at split
    exact h ⟨front, split.symm⟩
  rw [withoutMark, nothing, Option.getD_none]

theorem getLast?_significantDigits_ne (h : n ≠ 0) : (significantDigits n).getLast? ≠ some '0' := by
  intro last
  rw [significantDigits, if_neg h, List.getLast?_reverse] at last
  have first := List.head?_dropWhile_not (· == '0') (digits n).reverse
  rw [last] at first
  cases first

/-- A digit and a point are told apart. -/
theorem not_suffix_of_isDigits (h : IsDigits ds) : ¬ ['.', '0'] <:+ ds :=
  fun suffix => h.ne_of_mem (suffix.subset List.mem_cons_self) rfl rfl

/-- Behind a text, digits that do not end in a zero do not end in `.0` either. -/
theorem not_suffix_append (h : ds ≠ []) (last : ds.getLast? ≠ some '0') (front : List Char) :
    ¬ ['.', '0'] <:+ front ++ ds := by
  rintro ⟨before, split⟩
  rw [← List.getLast?_append_of_ne_nil front h, ← split,
    List.getLast?_append_of_ne_nil _ (by simp)] at last
  exact last rfl

/-- Positional digits that end in no needless zero. -/
theorem not_suffix_writePositional (h : IsDigits ds)
    (ends : ds.getLast? = some '0' → ds = ['0'] ∧ leading = 0) :
    ¬ ['.', '0'] <:+ writePositional [] ds leading := by
  rw [writePositional]
  split
  · next small =>
      refine not_suffix_append h.1 (fun last => ?_) _
      exact absurd (ends last).2 (by omega)
  · dsimp only
    split
    · rw [List.append_nil]
      exact not_suffix_of_isDigits (h.append fun c => isDigit_of_mem_zeros)
    · next long =>
        rw [List.append_cons]
        refine not_suffix_append (by simpa using long) (fun last => ?_) _
        rw [List.getLast?_drop, if_neg long] at last
        obtain ⟨rfl, -⟩ := ends last
        exact long (Nat.le_add_left 1 _)

/-- An exponent has two digits. -/
theorem not_suffix_writeScientific (ds : List Char) (leading : Int) :
    ¬ ['.', '0'] <:+ writeScientific ds leading := by
  have digits : IsDigits (List.replicate (2 - (digits leading.natAbs).length) '0' ++
      digits leading.natAbs) :=
    ⟨by simp [(isDigits_digits _).1],
      List.forall_mem_append.2 ⟨fun c => isDigit_of_mem_zeros, (isDigits_digits _).2⟩⟩
  have two : 2 ≤ (List.replicate (2 - (Decimal.digits leading.natAbs).length) '0' ++
      Decimal.digits leading.natAbs).length := by
    rw [List.length_append, List.length_replicate]
    omega
  intro suffix
  refine not_suffix_of_isDigits digits (List.suffix_of_suffix_length_le suffix ?_ two)
  unfold writeScientific writeExponent
  exact (List.suffix_cons _ _).trans ((List.suffix_cons _ _).trans (List.suffix_append _ _))

/-- **Only a mark ends in `.0`.** Places behind a point end in a digit that is not zero, since they
are significant. -/
theorem not_suffix_write (d : Decimal) (below : Int) : ¬ ['.', '0'] <:+ d.write ⟨below, []⟩ := by
  have ends {leading : Int} (zero : d.significand = 0 → leading = 0) :
      (significantDigits d.significand).getLast? = some '0' →
        significantDigits d.significand = ['0'] ∧ leading = 0 := by
    intro last
    by_cases h : d.significand = 0
    · rw [h]
      exact ⟨rfl, zero h⟩
    · exact absurd last (getLast?_significantDigits_ne h)
  rw [write]
  generalize hleading : (if d.significand = 0 then 0 else d.leadingExponent) = leading
  dsimp only
  split
  · refine not_suffix_writePositional (isDigits_significantDigits _) (ends fun zero => ?_)
    rw [← hleading, if_pos zero]
  · exact not_suffix_writeScientific _ _

end Abacus.Decimal
