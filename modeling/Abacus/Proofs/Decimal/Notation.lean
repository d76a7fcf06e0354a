import Abacus.Decimal.Layout
import Abacus.Proofs.Binary64.Value
import Abacus.Proofs.Numeral.Notation

/-!
# Decimals as numerals

A decimal is written as a numeral of the same value, whatever the layout: the zeros that its
significand ends in are moved into the power of ten, and the zeros that fill up a positional text
are moved back.

## Main statements

* `Decimal.digits_eq_append` — the digits of a number end in zeros that are not significant.
* `Decimal.spells_write` — the numeral that a decimal is written as.
-/

namespace Abacus.Decimal

open Numeral

/-! ### Digits -/

theorem ofDigits_append (cs ds : List Char) :
    ofDigits (cs ++ ds) = ofDigits cs * 10 ^ ds.length + ofDigits ds := by
  induction ds using List.reverseRecOn with
  | nil => simp [ofDigits]
  | append_singleton ds c ih =>
      rw [← List.append_assoc, ofDigits_append_singleton, ih, ofDigits_append_singleton,
        List.length_append, List.length_singleton, Nat.pow_succ]
      ring

theorem ofDigits_zeros (k : Nat) : ofDigits (List.replicate k '0') = 0 := by
  induction k with
  | zero => rfl
  | succ k ih =>
      rw [List.replicate_succ', ofDigits_append_singleton, ih]
      rfl

/-- Zeros in front of digits change nothing. -/
theorem ofDigits_zeros_append (k : Nat) (ds : List Char) :
    ofDigits (List.replicate k '0' ++ ds) = ofDigits ds := by
  rw [ofDigits_append, ofDigits_zeros, Nat.zero_mul, Nat.zero_add]

/-- Zeros behind digits multiply by ten. -/
theorem ofDigits_append_zeros (ds : List Char) (k : Nat) :
    ofDigits (ds ++ List.replicate k '0') = ofDigits ds * 10 ^ k := by
  rw [ofDigits_append, ofDigits_zeros, List.length_replicate, Nat.add_zero]

theorem isDigits_digits (n : Nat) : IsDigits (digits n) :=
  ⟨Nat.toDigits_ne_nil, fun _ member => Nat.isDigit_of_mem_toDigits (by decide) (by decide) member⟩

theorem isDigit_of_mem_zeros {k : Nat} {c : Char} (h : c ∈ List.replicate k '0') :
    c.isDigit = true := by
  rw [List.eq_of_mem_replicate h]
  rfl

/-- The first digit of a number is no zero, unless the number is zero. -/
theorem head?_digits_ne {n : Nat} (h : n ≠ 0) : (digits n).head? ≠ some '0' := by
  induction n using Nat.strongRecOn with
  | _ n ih =>
    unfold digits at ih ⊢
    by_cases small : n < 10
    · rw [Nat.toDigits_of_lt_base small]
      interval_cases n <;> first | exact absurd rfl h | decide
    · rw [Nat.toDigits_of_base_le (by decide) (by omega),
        List.head?_append_of_ne_nil _ Nat.toDigits_ne_nil]
      exact ih (n / 10) (by omega) (by omega)

theorem isWhole_digits (n : Nat) : IsWhole (digits n) := by
  refine ⟨isDigits_digits n, fun zero => ?_⟩
  by_cases h : n = 0
  · rw [h]
    rfl
  · exact absurd zero (head?_digits_ne h)

/-- Numbers below a power of ten have no more digits. -/
theorem digitCount_le_iff {n k : Nat} (h : 0 < k) : digitCount n ≤ k ↔ n < 10 ^ k :=
  Nat.length_toDigits_le_iff (by decide) h

/-- A smaller number has no more digits. -/
theorem digitCount_le_of_le {m n : Nat} (h : m ≤ n) : digitCount m ≤ digitCount n := by
  have positive : 0 < digitCount n := Nat.length_toDigits_pos
  exact (digitCount_le_iff positive).2 (h.trans_lt ((digitCount_le_iff positive).1 le_rfl))

theorem digitValue_lt {c : Char} (h : c.isDigit = true) : digitValue c < 10 := by
  simp only [Char.isDigit, Bool.and_eq_true, decide_eq_true_eq, ge_iff_le,
    UInt32.le_iff_toNat_le] at h
  have upper : c.toNat ≤ 57 := h.2
  have zero : '0'.toNat = 48 := rfl
  rw [digitValue, zero]
  omega

theorem digitChar_digitValue {c : Char} (h : c.isDigit = true) :
    Nat.digitChar (digitValue c) = c := by
  simp only [Char.isDigit, Bool.and_eq_true, decide_eq_true_eq, ge_iff_le,
    UInt32.le_iff_toNat_le] at h
  have range : ∀ n, 48 ≤ n → n ≤ 57 → Nat.digitChar (n - 48) = Char.ofNat n := by
    intro n lower upper
    interval_cases n <;> rfl
  calc Nat.digitChar (digitValue c)
    _ = Char.ofNat c.toNat := range c.toNat h.1 h.2
    _ = c := Char.ofNat_toNat c

/-- Digits without needless zeros are the digits of the number that they denote. -/
theorem digits_ofDigits {ds : List Char} (h : IsWhole ds) : digits (ofDigits ds) = ds := by
  induction ds using List.reverseRecOn with
  | nil => exact absurd rfl h.1.1
  | append_singleton cs c ih =>
      have last : c.isDigit = true := h.1.2 c (by simp)
      have small := digitValue_lt last
      rw [ofDigits_append_singleton]
      unfold digits at ih ⊢
      by_cases alone : cs = []
      · subst alone
        simp [ofDigits, Nat.toDigits_of_lt_base small, digitChar_digitValue last]
      · have front : cs.head? ≠ some '0' := by
          intro zero
          have all := h.2 (by rw [List.head?_append_of_ne_nil _ alone, zero])
          exact alone (List.append_eq_singleton_iff.1 all |>.elim And.left fun h => by simp at h)
        have whole : IsWhole cs :=
          ⟨⟨alone, fun d member => h.1.2 d (List.mem_append_left _ member)⟩,
            fun zero => absurd zero front⟩
        have positive : ofDigits cs ≠ 0 := by
          intro nothing
          have digits := ih whole
          rw [nothing] at digits
          exact front (digits ▸ rfl)
        rw [Nat.toDigits_of_base_le (by decide) (by omega),
          show (10 * ofDigits cs + digitValue c) / 10 = ofDigits cs by omega,
          show (10 * ofDigits cs + digitValue c) % 10 = digitValue c by omega,
          ih whole, digitChar_digitValue last]

/-- The digits of a number end in zeros that are not significant. -/
theorem digits_eq_append {n : Nat} (h : n ≠ 0) :
    ∃ k, digits n = significantDigits n ++ List.replicate k '0' := by
  have zeros : (digits n).reverse.takeWhile (· == '0') =
      List.replicate ((digits n).reverse.takeWhile (· == '0')).length '0' := by
    refine List.eq_replicate_iff.2 ⟨rfl, fun c member => ?_⟩
    simpa using List.mem_takeWhile_imp member
  refine ⟨((digits n).reverse.takeWhile (· == '0')).length, ?_⟩
  calc digits n
    _ = ((digits n).reverse.takeWhile (· == '0') ++
          (digits n).reverse.dropWhile (· == '0')).reverse := by
        rw [List.takeWhile_append_dropWhile, List.reverse_reverse]
    _ = ((digits n).reverse.dropWhile (· == '0')).reverse ++
          ((digits n).reverse.takeWhile (· == '0')).reverse := List.reverse_append
    _ = significantDigits n ++
          List.replicate ((digits n).reverse.takeWhile (· == '0')).length '0' := by
        rw [significantDigits, if_neg h]
        conv_lhs => rw [zeros, List.reverse_replicate]

/-- The digits that are written, and the power of ten that the first of them counts: the value of a
decimal, and no needless zero in front. -/
theorem toRat_eq_significantDigits (d : Decimal) (h : d.significand ≠ 0) :
    d.toRat = ofDigits (significantDigits d.significand) *
      10 ^ (d.leadingExponent + 1 - (significantDigits d.significand).length) := by
  obtain ⟨k, split⟩ := digits_eq_append h
  have value : d.significand = ofDigits (significantDigits d.significand) * 10 ^ k := by
    rw [← ofDigits_append_zeros, ← split, ofDigits_digits]
  have count : digitCount d.significand = (significantDigits d.significand).length + k := by
    rw [digitCount, split, List.length_append, List.length_replicate]
  have exponent : d.leadingExponent + 1 - (significantDigits d.significand).length =
      k + d.exponent := by
    rw [leadingExponent, count]
    push_cast
    ring
  rw [exponent, zpow_add₀ (by norm_num), zpow_natCast, toRat, ← mul_assoc]
  congr 1
  exact_mod_cast value

/-- The digits that are written begin with a zero only for the number zero. -/
theorem isDigits_significantDigits (n : Nat) : IsDigits (significantDigits n) := by
  by_cases h : n = 0
  · rw [h]
    exact ⟨by simp [significantDigits], by simp [significantDigits]⟩
  · obtain ⟨k, split⟩ := digits_eq_append h
    have all := (isDigits_digits n).2
    rw [split] at all
    refine ⟨fun nothing => ?_, fun c member => all c (List.mem_append_left _ member)⟩
    have value := ofDigits_digits n
    rw [split, nothing, List.nil_append, ofDigits_zeros] at value
    exact h value.symm

theorem head?_significantDigits_ne {n : Nat} (h : n ≠ 0) :
    (significantDigits n).head? ≠ some '0' := by
  obtain ⟨k, split⟩ := digits_eq_append h
  have first := head?_digits_ne h
  rwa [split, List.head?_append_of_ne_nil _ (isDigits_significantDigits n).1] at first

/-! ### The two layouts -/

/-- Digits and the power of ten that the first of them counts, as they are written. There is no zero
in front but for zero itself. -/
def Leads (ds : List Char) (leading : Int) : Prop :=
  IsDigits ds ∧ (ds.head? = some '0' → ds = ['0'] ∧ leading = 0)

/-- A numeral has the value of digits of which the first counts a power of ten. -/
def SpellsDigits (ds : List Char) (leading : Int) (text : List Char) : Prop :=
  ∃ d : Decimal, Spells d text ∧ d.toRat = ofDigits ds * 10 ^ (leading + 1 - ds.length)

/-- A numeral whose digits are the given ones with `k` zeros behind them. -/
theorem SpellsDigits.intro {ds whole places fraction power text : List Char} {leading e : Int}
    (k : Nat) (first : IsWhole whole) (middle : Fraction places fraction) (last : Power e power)
    (parts : text = whole ++ fraction ++ power)
    (digits : ofDigits (whole ++ places) = ofDigits ds * 10 ^ k)
    (exponent : leading + 1 - ds.length = k + (-places.length + e)) :
    SpellsDigits ds leading text := by
  refine ⟨⟨ofDigits (whole ++ places), -places.length + e⟩, parts ▸ .intro first middle last, ?_⟩
  rw [exponent, zpow_add₀ (by norm_num), zpow_natCast, toRat, digits, ← mul_assoc]
  push_cast
  rfl

/-- A positional numeral below one. -/
theorem spellsDigits_of_neg {ds : List Char} {leading : Int} (h : IsDigits ds)
    (small : leading < 0) :
    SpellsDigits ds leading ('0' :: '.' :: List.replicate (-leading - 1).toNat '0' ++ ds) := by
  have places : IsDigits (List.replicate (-leading - 1).toNat '0' ++ ds) :=
    ⟨by simp [h.1], List.forall_mem_append.2 ⟨fun c => isDigit_of_mem_zeros, h.2⟩⟩
  have digits : ofDigits (['0'] ++ (List.replicate (-leading - 1).toNat '0' ++ ds)) =
      ofDigits ds * 10 ^ 0 := by
    rw [Nat.pow_zero, Nat.mul_one, ← List.append_assoc, List.singleton_append,
      ← List.replicate_succ, ofDigits_zeros_append]
  refine .intro 0 (isWhole_digits 0) (.digits places) .none (by simp [Decimal.digits]) digits ?_
  simp only [List.length_append, List.length_replicate]
  omega

/-- A positional numeral that zeros fill up to the point. -/
theorem spellsDigits_of_length_le {wholeMark ds : List Char} {leading : Int}
    (h : Leads ds leading) (mark : wholeMark = [] ∨ wholeMark = ['.', '0'])
    (large : 0 ≤ leading) (short : ds.length ≤ leading.toNat + 1) :
    SpellsDigits ds leading
      (ds ++ List.replicate (leading.toNat + 1 - ds.length) '0' ++ wholeMark) := by
  have whole : IsWhole (ds ++ List.replicate (leading.toNat + 1 - ds.length) '0') := by
    refine ⟨h.1.append fun c => isDigit_of_mem_zeros, fun zero => ?_⟩
    rw [List.head?_append_of_ne_nil _ h.1.1] at zero
    obtain ⟨rfl, rfl⟩ := h.2 zero
    rfl
  rcases mark with rfl | rfl
  · refine .intro (leading.toNat + 1 - ds.length) whole .none .none (by simp) ?_ ?_
    · rw [List.append_nil, ofDigits_append_zeros]
    · simp only [List.length_nil]
      omega
  · have zero : IsDigits ['0'] := isDigits_digits 0
    refine .intro (leading.toNat + 1 - ds.length + 1) whole (.digits zero) .none (by simp) ?_ ?_
    · rw [List.append_assoc, ← List.replicate_succ', ofDigits_append_zeros]
    · simp only [List.length_singleton]
      omega

/-- A positional numeral with the point among its digits. -/
theorem spellsDigits_of_lt_length {ds : List Char} {leading : Int} (h : Leads ds leading)
    (large : 0 ≤ leading) (long : leading.toNat + 1 < ds.length) :
    SpellsDigits ds leading
      (ds.take (leading.toNat + 1) ++ '.' :: ds.drop (leading.toNat + 1)) := by
  have whole : IsWhole (ds.take (leading.toNat + 1)) := by
    refine ⟨⟨?_, fun c member => h.1.2 c (List.mem_of_mem_take member)⟩, fun zero => ?_⟩
    · simp [h.1.1]
    · rw [List.head?_take, if_neg (by omega)] at zero
      simp [(h.2 zero).1] at long
  have places : IsDigits (ds.drop (leading.toNat + 1)) := by
    refine ⟨?_, fun c member => h.1.2 c (List.mem_of_mem_drop member)⟩
    simp only [ne_eq, List.drop_eq_nil_iff]
    omega
  refine .intro 0 whole (.digits places) .none (by simp) ?_ ?_
  · rw [List.take_append_drop, Nat.pow_zero, Nat.mul_one]
  · simp only [List.length_drop]
    omega

/-- Positional numerals. -/
theorem spellsDigits_writePositional {wholeMark ds : List Char} {leading : Int}
    (h : Leads ds leading) (mark : wholeMark = [] ∨ wholeMark = ['.', '0']) :
    SpellsDigits ds leading (writePositional wholeMark ds leading) := by
  unfold writePositional
  split
  · next small => exact spellsDigits_of_neg h.1 small
  · next large =>
      dsimp only
      split
      · next short => exact spellsDigits_of_length_le h mark (by omega) short
      · next long => exact spellsDigits_of_lt_length h (by omega) (by omega)

/-- An exponent as it is written. -/
theorem power_writeExponent (e : Int) : Power e ('e' :: writeExponent e) := by
  unfold writeExponent
  dsimp only
  generalize 2 - (digits e.natAbs).length = k
  have ds : IsDigits (List.replicate k '0' ++ digits e.natAbs) :=
    ⟨by simp [(isDigits_digits _).1],
      List.forall_mem_append.2 ⟨fun c => isDigit_of_mem_zeros, (isDigits_digits _).2⟩⟩
  have value : ofDigits (List.replicate k '0' ++ digits e.natAbs) = e.natAbs := by
    rw [ofDigits_zeros_append, ofDigits_digits]
  by_cases h : e < 0
  · have power := Power.negative (.inl rfl : IsMark 'e') ds
    rw [value, show -(e.natAbs : Int) = e by omega] at power
    simpa [h] using power
  · have power := Power.positive (.inl rfl : IsMark 'e') ds
    rw [value, show (e.natAbs : Int) = e by omega] at power
    simpa [h] using power

/-- Numerals with a power of ten. -/
theorem spellsDigits_writeScientific {ds : List Char} (h : IsDigits ds) (leading : Int) :
    SpellsDigits ds leading (writeScientific ds leading) := by
  have power := power_writeExponent leading
  cases ds with
  | nil => exact absurd rfl h.1
  | cons d rest =>
      have whole : IsWhole [d] := by
        refine ⟨⟨by simp, fun c member => h.2 c ?_⟩, fun zero => ?_⟩
        · rw [List.mem_singleton.1 member]
          exact List.mem_cons_self
        · rw [Option.some.inj zero]
      cases rest with
      | nil =>
          refine .intro 0 whole .none power (by simp [writeScientific]) (by simp) ?_
          simp
      | cons d' rest =>
          have places : IsDigits (d' :: rest) :=
            ⟨by simp, fun c member => h.2 c (List.mem_cons_of_mem d member)⟩
          refine .intro 0 whole (.digits places) power (by simp [writeScientific]) (by simp) ?_
          simp only [List.length_cons]
          omega

/-- **A decimal is written as a numeral of the same value,** in each layout whose whole numbers are
marked by `.0` or not at all. -/
theorem spells_write {layout : Layout}
    (mark : layout.wholeMark = [] ∨ layout.wholeMark = ['.', '0']) (d : Decimal) :
    ∃ d' : Decimal, Spells d' (d.write layout) ∧ d'.toRat = d.toRat := by
  have either (ds : List Char) (leading : Int) (h : Leads ds leading) :
      SpellsDigits ds leading (if -4 ≤ leading ∧ leading < layout.positionalBelow then
        writePositional layout.wholeMark ds leading else writeScientific ds leading) := by
    split
    · exact spellsDigits_writePositional h mark
    · exact spellsDigits_writeScientific h.1 leading
  unfold write
  by_cases zero : d.significand = 0
  · obtain ⟨d', spelled, value⟩ := either ['0'] 0 ⟨isDigits_digits 0, fun _ => ⟨rfl, rfl⟩⟩
    refine ⟨d', ?_, ?_⟩
    · simpa [zero, significantDigits] using spelled
    · rw [value, toRat, zero]
      simp [ofDigits, digitValue]
  · have first := head?_significantDigits_ne zero
    obtain ⟨d', spelled, value⟩ := either _ d.leadingExponent
      ⟨isDigits_significantDigits d.significand, fun h => absurd h first⟩
    refine ⟨d', ?_, value.trans (toRat_eq_significantDigits d zero).symm⟩
    simpa [zero] using spelled

/-- Where whole numbers are marked, every text has a point or a power of ten. -/
theorem exists_not_isDigit_write {layout : Layout} (mark : layout.wholeMark = ['.', '0'])
    (d : Decimal) : ∃ c ∈ d.write layout, c.isDigit = false := by
  have positional (ds : List Char) (leading : Int) :
      '.' ∈ writePositional layout.wholeMark ds leading := by
    unfold writePositional
    split
    · simp
    dsimp only
    split
    · simp [mark]
    · simp
  have scientific (ds : List Char) (leading : Int) : 'e' ∈ writeScientific ds leading := by
    simp [writeScientific]
  have either (ds : List Char) (leading : Int) :
      ∃ c ∈ if -4 ≤ leading ∧ leading < layout.positionalBelow then
        writePositional layout.wholeMark ds leading else writeScientific ds leading,
      c.isDigit = false := by
    split
    · exact ⟨'.', positional ds leading, rfl⟩
    · exact ⟨'e', scientific ds leading, rfl⟩
  exact either _ _

end Abacus.Decimal
