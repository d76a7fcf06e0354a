import Abacus.Proofs.Decimal.Plain
import Abacus.Proofs.Numeral.Value
import Abacus.Proofs.Rounding.Nearest

/-!
# Significant digits

A rational is rounded to a number of significant digits by counting units of the last of them: its
leading digit tells which power of ten they are, and the count is rounded to the nearest whole
number, ties to even. The count may be rounded up to the next power of ten, and then the leading
digit of the rounded rational stands one place further left. The notation is chosen by the rounded
rational.

## Main definitions

* `IsRounded` — the rational rounded to a number of significant digits.
* `Decimal.Shows` — a rational written with at most so many significant digits.

## Main statements

* `IsRounded.unique` — a rational is rounded to one rational.
* `Decimal.isRounded_roundTo` — a rounded decimal is the rounded value of the decimal.
* `Decimal.shows_write` — how a decimal is written.
-/

namespace Abacus

open Numeral

/-- `IsRounded count r q`: counted in units of its last of `count` significant digits, the rational
`r` is nearest to the whole number `n`, ties to even, and `q` is that many units. -/
def IsRounded (count : ℕ) (r q : ℚ) : Prop :=
  ∃ (e : ℤ) (n : ℕ), 10 ^ e ≤ r ∧ r < 10 ^ (e + 1) ∧
    IsNearestWhole (r / 10 ^ (e + 1 - count)) n ∧ q = n * 10 ^ (e + 1 - count)

/-- The decade of a rational. -/
theorem decade_unique {r : ℚ} {e e' : ℤ} (least : 10 ^ e ≤ r) (below : r < 10 ^ (e + 1))
    (least' : 10 ^ e' ≤ r) (below' : r < 10 ^ (e' + 1)) : e = e' := by
  have lower := (zpow_lt_zpow_iff_right₀ (by norm_num : (1 : ℚ) < 10)).1 (least.trans_lt below')
  have upper := (zpow_lt_zpow_iff_right₀ (by norm_num : (1 : ℚ) < 10)).1 (least'.trans_lt below)
  omega

/-- **A rational is rounded to one rational,** so a text with that value is the text of the rounded
value, however it was come by. -/
theorem IsRounded.unique {count : ℕ} {r q q' : ℚ} (h : IsRounded count r q)
    (h' : IsRounded count r q') : q = q' := by
  obtain ⟨e, n, least, below, nearest, rfl⟩ := h
  obtain ⟨e', n', least', below', nearest', rfl⟩ := h'
  obtain rfl := decade_unique least below least' below'
  rw [nearest.unique nearest']

theorem isNearestWhole_natCast (n : ℕ) : IsNearestWhole n n := by
  refine ⟨fun k => ?_, fun k other tie => ?_⟩
  · rw [sub_self, abs_zero]
    exact abs_nonneg _
  · rw [sub_self, abs_zero, eq_comm, abs_eq_zero, sub_eq_zero, Nat.cast_inj] at tie
    exact absurd tie other

namespace Decimal

variable {d : Decimal} {count : ℕ} {ds : List Char} {leading : ℤ}

/-! ### Rounded decimals -/

/-- **A rounded decimal is the rounded value of the decimal,** also where it has fewer digits. -/
theorem isRounded_roundTo (nonzero : d.significand ≠ 0) (count : ℕ) :
    IsRounded count d.toRat (d.roundTo count).toRat := by
  have own := (ten_zpow_pos d.exponent).ne'
  have least := zpow_leadingExponent_le nonzero
  have below := toRat_lt_zpow d
  rw [roundTo, roundAt]
  rcases Nat.le_total count (digitCount d.significand) with few | many
  · refine ⟨d.leadingExponent, roundQuotient d.significand
      (10 ^ (digitCount d.significand - count)), least, below, ?_, ?_⟩
    · -- So many units are a quotient by a power of ten.
      have units : d.toRat / 10 ^ (d.leadingExponent + 1 - count) =
          (d.significand : ℚ) / ((10 ^ (digitCount d.significand - count) : ℕ) : ℚ) := by
        rw [← leadingExponent_eq_of_le few, toRat, zpow_add₀ (by norm_num), zpow_natCast,
          mul_comm (10 ^ d.exponent), mul_div_mul_right _ _ own, Nat.cast_pow, Nat.cast_ofNat]
      rw [units]
      exact isNearestWhole_roundQuotient _ (Nat.pow_pos (by decide))
    · rw [toRat, leadingExponent_eq_of_le few]
      rfl
  · -- All digits are kept, and the last unit is below them.
    obtain ⟨more, rfl⟩ := Nat.exists_eq_add_of_le many
    have kept : roundQuotient d.significand 1 = d.significand := by
      have whole := roundQuotient_mul_self d.significand Nat.one_pos
      rwa [Nat.mul_one] at whole
    have exponent : d.exponent = d.leadingExponent + 1 - (digitCount d.significand + more : ℕ) +
        more := by
      rw [leadingExponent]
      push_cast
      ring
    have value : d.toRat = (d.significand * 10 ^ more : ℕ) *
        10 ^ (d.leadingExponent + 1 - (digitCount d.significand + more : ℕ)) := by
      rw [← toRat_add, ← exponent]
    have unit := (ten_zpow_pos (d.leadingExponent + 1 - (digitCount d.significand + more : ℕ))).ne'
    refine ⟨d.leadingExponent, d.significand * 10 ^ more, least, below, ?_, ?_⟩
    · rw [value, mul_div_cancel_right₀ _ unit]
      exact isNearestWhole_natCast _
    · rw [← value, Nat.sub_eq_zero_of_le many]
      show (Decimal.mk (roundQuotient d.significand 1) (d.exponent + (0 : ℕ))).toRat = d.toRat
      rw [kept, Nat.cast_zero, Int.add_zero]

/-- With a digit or more, only zero is rounded to zero. -/
theorem significand_roundTo_ne_zero (nonzero : d.significand ≠ 0) (positive : 0 < count) :
    (d.roundTo count).significand ≠ 0 := by
  have floor := div_le_roundQuotient d.significand (10 ^ (digitCount d.significand - count))
  have some : 0 < d.significand / 10 ^ (digitCount d.significand - count) := by
    rcases Nat.le_total count (digitCount d.significand) with few | many
    · exact (Nat.pow_pos (by decide)).trans_le (pow_le_floor nonzero positive few)
    · rw [Nat.sub_eq_zero_of_le many, Nat.pow_zero, Nat.div_one]
      exact Nat.pos_of_ne_zero nonzero
  exact (some.trans_le floor).ne'

/-! ### Written decimals -/

/-- The digits of the magnitude of an exponent: two or more, with a zero in front to make two
only. -/
structure IsExponentDigits (e : ℤ) (ds : List Char) : Prop where
  digits : IsDigits ds
  two : 2 ≤ ds.length
  zero : ds.head? = some '0' → ds.length = 2
  value : ofDigits ds = e.natAbs

/-- `Shows count q text`: the text means the rational, whose leading digit counts `10 ^ e`. It is
positional from `-4` up to `count`, exclusive, and has an exponent with its sign outside. There is
no needless zero in front, none after a point, and no point without digits after it. -/
inductive Shows (count : ℕ) (q : ℚ) : List Char → Prop
  | positional {whole places fraction : List Char} {e : ℤ} :
      10 ^ e ≤ q → q < 10 ^ (e + 1) → -4 ≤ e → e < count →
      IsWhole whole → Fraction places fraction → places.getLast? ≠ some '0' →
      Denotes q (whole ++ fraction) → Shows count q (whole ++ fraction)
  | scientific {first : Char} {places fraction ds : List Char} {e : ℤ} :
      10 ^ e ≤ q → q < 10 ^ (e + 1) → e < -4 ∨ count ≤ e →
      IsWhole [first] → Fraction places fraction → places.getLast? ≠ some '0' →
      Denotes (q / 10 ^ e) ([first] ++ fraction) → IsExponentDigits e ds →
      Shows count q ([first] ++ fraction ++ 'e' :: (if e < 0 then '-' else '+') :: ds)

/-- Positional digits: whole ones, and places that end where the digits end. -/
theorem exists_writePositional (h : IsDigits ds) (first : ds.head? ≠ some '0')
    (last : ds.getLast? ≠ some '0') (leading : ℤ) :
    ∃ whole places fraction, writePositional [] ds leading = whole ++ fraction ∧ IsWhole whole ∧
      Fraction places fraction ∧ places.getLast? ≠ some '0' := by
  rw [writePositional]
  split
  · have places : IsDigits (List.replicate (-leading - 1).toNat '0' ++ ds) :=
      ⟨by simp [h.1], List.forall_mem_append.2 ⟨fun c => isDigit_of_mem_zeros, h.2⟩⟩
    refine ⟨['0'], List.replicate (-leading - 1).toNat '0' ++ ds, _, rfl, isWhole_digits 0,
      .digits places, ?_⟩
    rwa [List.getLast?_append_of_ne_nil _ h.1]
  · dsimp only
    split
    · refine ⟨ds ++ List.replicate (leading.toNat + 1 - ds.length) '0', [], [], rfl, ?_, .none,
        by simp⟩
      refine ⟨h.append fun c => isDigit_of_mem_zeros, fun zero => ?_⟩
      rw [List.head?_append_of_ne_nil _ h.1] at zero
      exact absurd zero first
    · next long =>
        have places : IsDigits (ds.drop (leading.toNat + 1)) :=
          ⟨by simpa using long, fun c member => h.2 c (List.mem_of_mem_drop member)⟩
        refine ⟨_, _, _, rfl, ⟨⟨?_, ?_⟩, fun zero => ?_⟩, .digits places, ?_⟩
        · simp [h.1]
        · exact fun c member => h.2 c (List.mem_of_mem_take member)
        · rw [List.head?_take, if_neg (by omega)] at zero
          exact absurd zero first
        · rwa [List.getLast?_drop, if_neg long]

/-- A digit, and places that end where the digits end, before the exponent. -/
theorem exists_writeScientific_eq (h : IsDigits ds) (last : ds.getLast? ≠ some '0') (leading : ℤ) :
    ∃ first places fraction,
      writeScientific ds leading = [first] ++ fraction ++ 'e' :: writeExponent leading ∧
      IsWhole [first] ∧ Fraction places fraction ∧ places.getLast? ≠ some '0' := by
  have single {c : Char} (digit : c.isDigit = true) : IsWhole [c] := by
    refine ⟨⟨by simp, List.forall_mem_singleton.2 digit⟩, fun zero => ?_⟩
    rw [Option.some.inj zero]
  rcases ds with _ | ⟨c, _ | ⟨c', rest⟩⟩
  · exact absurd rfl h.1
  · exact ⟨c, [], [], rfl, single (h.2 c (by simp)), .none, by simp⟩
  · have places : IsDigits (c' :: rest) :=
      ⟨by simp, fun x member => h.2 x (List.mem_cons_of_mem c member)⟩
    exact ⟨c, _, _, rfl, single (h.2 c (by simp)), .digits places, last⟩

theorem exists_writeExponent (e : ℤ) : ∃ ds,
    writeExponent e = (if e < 0 then '-' else '+') :: ds ∧ IsExponentDigits e ds := by
  have own := isDigits_digits e.natAbs
  have length : 0 < (digits e.natAbs).length := List.length_pos_of_ne_nil own.1
  refine ⟨List.replicate (2 - (digits e.natAbs).length) '0' ++ digits e.natAbs, rfl,
    ⟨⟨by simp [own.1], ?_⟩, ?_, fun zero => ?_, ?_⟩⟩
  · exact List.forall_mem_append.2 ⟨fun c => isDigit_of_mem_zeros, own.2⟩
  · rw [List.length_append, List.length_replicate]
    omega
  · rw [List.length_append, List.length_replicate]
    by_cases short : (digits e.natAbs).length ≤ 2
    · omega
    · rw [Nat.sub_eq_zero_of_le (by omega), List.replicate_zero, List.nil_append] at zero
      have alone : digits e.natAbs = ['0'] := (isWhole_digits e.natAbs).2 zero
      rw [alone] at short
      exact absurd (by decide) short
  · rw [ofDigits_zeros_append, ofDigits_digits]

/-- A numeral is read as the decimal that it spells. -/
theorem scientific?_of_spells {cs : List Char} (h : Spells d cs) : scientific? cs = some d := by
  cases h with
  | intro whole fraction power => exact scientific?_append whole.1 fraction power

/-- The numeral before a power of ten. -/
theorem denotes_mantissa {whole places fraction power : List Char} {e : ℤ} (h : IsDigits whole)
    (h' : Fraction places fraction) (h'' : Power e power)
    (spelled : Spells d (whole ++ fraction ++ power)) :
    Denotes (d.toRat / 10 ^ e) (whole ++ fraction) := by
  have parts := scientific?_append h h' h''
  rw [scientific?_of_spells spelled, Option.some_inj] at parts
  have value : (Decimal.mk (ofDigits (whole ++ places)) (-places.length)).toRat =
      d.toRat / 10 ^ e := by
    rw [parts, toRat, toRat, zpow_add₀ (by norm_num), ← mul_assoc,
      mul_div_cancel_right₀ _ (ten_zpow_pos e).ne']
  exact exists_plain?_iff.1 ⟨_, plain?_append h h', value⟩

/-- **How a decimal is written:** in which notation, with which digits and exponent, and with no
zeros at the end. -/
theorem shows_write (nonzero : d.significand ≠ 0) (positive : 0 < count) :
    Shows count d.toRat (d.write ⟨count, []⟩) := by
  have least := zpow_leadingExponent_le nonzero
  have below := toRat_lt_zpow d
  have digits := isDigits_significantDigits d.significand
  have last := getLast?_significantDigits_ne nonzero
  by_cases range : -4 ≤ d.leadingExponent ∧ d.leadingExponent < count
  · obtain ⟨d', plain, value⟩ :=
      exists_plain?_write (d := d) (Nat.cast_pos.2 positive) fun _ => range
    have denoted := exists_plain?_iff.1 ⟨d', plain, value⟩
    rw [write_of_ne_zero nonzero, if_pos range] at denoted ⊢
    obtain ⟨whole, places, fraction, text, parts⟩ :=
      exists_writePositional digits (head?_significantDigits_ne nonzero) last d.leadingExponent
    dsimp only at denoted ⊢
    rw [text] at denoted ⊢
    exact .positional least below range.1 range.2 parts.1 parts.2.1 parts.2.2 denoted
  · obtain ⟨d', spelled, value⟩ :=
      spells_write (.inl rfl : (⟨count, []⟩ : Layout).wholeMark = [] ∨ _) d
    rw [write_of_ne_zero nonzero, if_neg range] at spelled ⊢
    obtain ⟨first, places, fraction, text, whole, middle, ends⟩ :=
      exists_writeScientific_eq digits last d.leadingExponent
    obtain ⟨ds, exponent, two⟩ := exists_writeExponent d.leadingExponent
    have power := power_writeExponent d.leadingExponent
    rw [text] at spelled ⊢
    have denoted := denotes_mantissa whole.1 middle power spelled
    rw [value] at denoted
    rw [exponent]
    exact .scientific least below (by omega) whole middle ends denoted two

end Decimal

end Abacus
