import Abacus.Numeral.Plain
import Abacus.Proofs.Binary64.Nearest
import Abacus.Proofs.Numeral.Notation

/-!
# The values of plain numerals

A plain numeral denotes a rational: the number before the point, and a fraction of as many decimal
places as there are digits behind it. It is read as the number nearest to that rational, or not at
all where the rational is beyond the range. So the number is finite and has no sign, and how the
rational is written does not matter.

## Main definitions

* `Numeral.Denotes` — the plain numerals and their rationals.

## Main statements

* `Numeral.exists_plain?_iff` — plain numerals are read as decimals of their value.
* `Numeral.value?_of_denotes` — the number that a plain numeral is read as.
* `Numeral.value?_eq_some_iff_isNearest` — numbers are read exactly, up to one rounding.
-/

namespace Abacus.Numeral

open Binary64

/-- `Denotes r text`: the text is digits, digits with a point among or after them, or a point before
digits, and means the rational. -/
inductive Denotes : ℚ → List Char → Prop
  | whole {ds : List Char} : IsDigits ds → Denotes (Decimal.ofDigits ds) ds
  | point {ds places : List Char} : IsDigits ds → (∀ c ∈ places, c.isDigit = true) →
      Denotes (Decimal.ofDigits ds + Decimal.ofDigits places / 10 ^ places.length)
        (ds ++ '.' :: places)
  | places {places : List Char} : IsDigits places →
      Denotes (Decimal.ofDigits places / 10 ^ places.length) ('.' :: places)

variable {r r' : ℚ} {cs ds places : List Char} {t : String}

/-! ### Decimals of numerals -/

/-- The digits on both sides of a point. -/
theorem toRat_ofDigits_append (ds places : List Char) :
    (Decimal.mk (Decimal.ofDigits (ds ++ places)) (-places.length)).toRat =
      Decimal.ofDigits ds + Decimal.ofDigits places / 10 ^ places.length := by
  have power : (10 : ℚ) ^ places.length ≠ 0 := by positivity
  rw [Decimal.toRat, Decimal.ofDigits_append, zpow_neg, zpow_natCast, ← div_eq_mul_inv]
  push_cast
  rw [add_div, mul_div_cancel_right₀ _ power]

/-- Digits with a point are a plain numeral, if there is a digit on either side. -/
theorem plain?_point (h : ∀ c ∈ ds, c.isDigit = true) (h' : ∀ c ∈ places, c.isDigit = true)
    (some : ds ++ places ≠ []) :
    plain? (ds ++ '.' :: places) =
      Option.some ⟨Decimal.ofDigits (ds ++ places), -places.length⟩ := by
  have ends : ∀ c ∈ ('.' :: places).head?, c.isDigit = false := by simp
  have all : places.all Char.isDigit = true := List.all_eq_true.2 h'
  have either : (!(ds.isEmpty && places.isEmpty)) = true := by
    rw [Bool.not_eq_true', Bool.and_eq_false_iff, List.isEmpty_eq_false_iff,
      List.isEmpty_eq_false_iff, ← not_and_or, ← List.append_eq_nil_iff]
    exact some
  unfold plain?
  rw [Text.takeWhile_append_of_ends h ends, Text.dropWhile_append_of_ends h ends]
  dsimp only
  rw [all, either, if_pos (by rfl)]

/-- **Plain numerals are read as decimals of their value.** Nothing else is read, so the language of
numerals is what the relation says. -/
theorem exists_plain?_iff : (∃ d, plain? cs = some d ∧ d.toRat = r) ↔ Denotes r cs := by
  constructor
  · rintro ⟨d, plain, rfl⟩
    have split := List.takeWhile_append_dropWhile (p := Char.isDigit) (l := cs)
    have digits : ∀ c ∈ cs.takeWhile Char.isDigit, c.isDigit = true :=
      fun c member => List.mem_takeWhile_imp member
    rw [plain?] at plain
    generalize cs.takeWhile Char.isDigit = ds at plain split digits
    -- The first character that is no digit decides: there is none, or it has to be the point.
    cases rest : cs.dropWhile Char.isDigit with
    | nil =>
        simp only [rest, Option.ite_none_left_eq_some, List.isEmpty_iff, Option.some.injEq]
          at plain
        obtain ⟨nonempty, rfl⟩ := plain
        rw [rest, List.append_nil] at split
        rw [← split, Decimal.toRat_natCast]
        exact .whole ⟨nonempty, digits⟩
    | cons c places =>
        simp only [rest, Option.ite_none_right_eq_some, Bool.and_eq_true, beq_iff_eq,
          List.all_eq_true, Bool.not_eq_true', Bool.and_eq_false_iff, List.isEmpty_eq_false_iff,
          Option.some.injEq] at plain
        obtain ⟨⟨⟨rfl, digits'⟩, either⟩, rfl⟩ := plain
        rw [← split, rest, toRat_ofDigits_append]
        by_cases empty : ds = []
        · subst empty
          have nonempty : places ≠ [] := either.resolve_left (not_not.2 rfl)
          have value : ((Decimal.ofDigits [] : ℕ) : ℚ) = 0 := Nat.cast_zero
          rw [value, zero_add, List.nil_append]
          exact .places ⟨nonempty, digits'⟩
        · exact .point ⟨empty, digits⟩ digits'
  · intro denoted
    cases denoted with
    | whole digits =>
        refine ⟨_, ?_, Decimal.toRat_natCast _⟩
        simpa using plain?_append digits .none
    | @point ds places digits digits' =>
        have some : ds ++ places ≠ [] := List.append_ne_nil_of_left_ne_nil digits.1 _
        exact ⟨_, plain?_point digits.2 digits' some, toRat_ofDigits_append ds places⟩
    | @places places digits =>
        refine ⟨_, @plain?_point [] places (by simp) digits.2 digits.1, ?_⟩
        rw [toRat_ofDigits_append]
        simp [Decimal.ofDigits]

/-- A plain numeral denotes one rational. -/
theorem Denotes.eq (h : Denotes r cs) (h' : Denotes r' cs) : r = r' := by
  obtain ⟨d, plain, rfl⟩ := exists_plain?_iff.2 h
  obtain ⟨d', plain', rfl⟩ := exists_plain?_iff.2 h'
  rw [plain, Option.some_inj] at plain'
  rw [plain']

theorem Denotes.nonneg (h : Denotes r cs) : 0 ≤ r := by
  obtain ⟨d, -, rfl⟩ := exists_plain?_iff.2 h
  exact d.toRat_nonneg

/-! ### Numbers of numerals -/

/-- What is no plain numeral is no number. -/
theorem exists_denotes_of_value? {x : Binary64} (h : value? t = some x) :
    ∃ r, Denotes r t.toList := by
  obtain ⟨d, plain, -⟩ := Option.bind_eq_some_iff.1 h
  exact ⟨_, exists_plain?_iff.1 ⟨d, plain, rfl⟩⟩

/-- **The number that a plain numeral is read as** is what its rational is rounded to. There is none
if rounding gets to the limit. -/
theorem value?_of_denotes (h : Denotes r t.toList) {x : Binary64} :
    value? t = some x ↔ ∃ onGrid, x = finite false (nearestQuanta r) onGrid := by
  obtain ⟨d, plain, rfl⟩ := exists_plain?_iff.2 h
  have read : value? t = some x ↔
      (ofDecimal false d).isFinite = true ∧ ofDecimal false d = x := by
    rw [value?, plain, Option.bind_some]
    simp only [Option.ite_none_right_eq_some, Option.some.injEq]
  rw [read]
  constructor
  · rintro ⟨isFinite, rfl⟩
    have sign := isNegative_ofDecimal false d
    cases value : ofDecimal false d with
    | nan => rw [value] at isFinite; cases isFinite
    | infinite => rw [value] at isFinite; cases isFinite
    | finite negative quanta onGrid =>
        rw [value] at sign
        obtain rfl : negative = false := sign
        obtain rfl := ofDecimal_eq_finite_iff.1 value
        exact ⟨onGrid, rfl⟩
  · rintro ⟨onGrid, rfl⟩
    have value : ofDecimal false d = finite false (nearestQuanta d.toRat) onGrid :=
      ofDecimal_eq_finite_iff.2 rfl
    exact ⟨by rw [value]; rfl, value⟩

/-- A rational within the range has a nearest number that is not negative, and has one only. -/
theorem isNearest_iff_exists (nonneg : 0 ≤ r) (small : r < 2 ^ 1024 - 2 ^ 970) {x : Binary64} :
    x.IsNearest r ∧ x.isNegative = false ↔
      ∃ onGrid, x = finite false (nearestQuanta r) onGrid := by
  have range := (nearestQuanta_lt_limit_iff nonneg).2 small
  constructor
  · rintro ⟨nearest, sign⟩
    cases x with
    | nan => obtain ⟨v, member, -⟩ := nearest.nearest; cases member
    | infinite => obtain ⟨v, member, -⟩ := nearest.nearest; cases member
    | finite negative quanta onGrid =>
        obtain rfl : negative = false := sign
        obtain rfl := (isNearest_iff nonneg range).1 nearest
        exact ⟨onGrid, rfl⟩
  · rintro ⟨onGrid, rfl⟩
    exact ⟨(isNearest_iff nonneg range).2 rfl, rfl⟩

/-- **Numerals are rounded once.** A text is read as a number if and only if it is a plain numeral
of a rational below `2 ^ 1024 - 2 ^ 970`. The number is the nearest one, ties to even, so it is
finite, and it is not negative, nor is a zero. Numerals of one rational are read as one number. -/
theorem value?_eq_some_iff_isNearest (t : String) :
    ((∃ x, value? t = some x) ↔ ∃ r, Denotes r t.toList ∧ r < 2 ^ 1024 - 2 ^ 970) ∧
      (∀ x, value? t = some x ↔ ∃ r, Denotes r t.toList ∧ r < 2 ^ 1024 - 2 ^ 970 ∧
        x.IsNearest r ∧ x.isNegative = false) ∧
      ∀ (r : ℚ) (t' : String), Denotes r t.toList → Denotes r t'.toList →
        value? t = value? t' := by
  have each (x : Binary64) : value? t = some x ↔ ∃ r, Denotes r t.toList ∧
      r < 2 ^ 1024 - 2 ^ 970 ∧ x.IsNearest r ∧ x.isNegative = false := by
    constructor
    · intro valued
      obtain ⟨r, denoted⟩ := exists_denotes_of_value? valued
      obtain ⟨onGrid, rfl⟩ := (value?_of_denotes denoted).1 valued
      have small := (nearestQuanta_lt_limit_iff denoted.nonneg).1 onGrid.1
      exact ⟨r, denoted, small, (isNearest_iff_exists denoted.nonneg small).2 ⟨onGrid, rfl⟩⟩
    · rintro ⟨r, denoted, small, nearest⟩
      rw [value?_of_denotes denoted]
      exact (isNearest_iff_exists denoted.nonneg small).1 nearest
  refine ⟨⟨?_, ?_⟩, each, ?_⟩
  · rintro ⟨x, valued⟩
    obtain ⟨r, denoted, small, -⟩ := (each x).1 valued
    exact ⟨r, denoted, small⟩
  · rintro ⟨r, denoted, small⟩
    have range := (nearestQuanta_lt_limit_iff denoted.nonneg).2 small
    exact ⟨_, (value?_of_denotes denoted).2 ⟨⟨range, spacing_dvd_roundToGrid _ _⟩, rfl⟩⟩
  · intro r t' denoted denoted'
    apply Option.ext
    intro x
    rw [value?_of_denotes denoted, value?_of_denotes denoted']

/-- `2 ^ 53 + 1` is half-way between two numbers, and is read as one of them however it is
written. -/
theorem value?_of_tie :
    ∃ r x, Denotes r "9007199254740993".toList ∧ Denotes r "09007199254740993.".toList ∧
      r < 2 ^ 1024 - 2 ^ 970 ∧ value? "9007199254740993" = some x ∧
      value? "09007199254740993." = some x ∧ x.IsNearest r := by
  have digits : IsDigits "9007199254740993".toList := ⟨by decide, by simp⟩
  have digits' : IsDigits "09007199254740993".toList := ⟨by decide, by simp⟩
  have denoted : Denotes 9007199254740993 "9007199254740993".toList := by
    have value : Decimal.ofDigits "9007199254740993".toList = 9007199254740993 := by decide
    have whole := Denotes.whole digits
    rwa [value, Nat.cast_ofNat] at whole
  have denoted' : Denotes 9007199254740993 "09007199254740993.".toList := by
    have value : Decimal.ofDigits "09007199254740993".toList = 9007199254740993 := by decide
    have point := @Denotes.point _ [] digits' (List.forall_mem_nil _)
    rw [value, Nat.cast_ofNat] at point
    simpa [Decimal.ofDigits] using point
  have small : (9007199254740993 : ℚ) < 2 ^ 1024 - 2 ^ 970 := by
    obtain ⟨-, j, -, -, edge⟩ := exists_limit_eq
    rw [edge]
    have power : (1 : ℚ) ≤ 2 ^ j := one_le_pow₀ (by norm_num)
    generalize (2 : ℚ) ^ j = u at power ⊢
    linarith
  obtain ⟨exist, each, same⟩ := value?_eq_some_iff_isNearest "9007199254740993"
  obtain ⟨x, valued⟩ := exist.2 ⟨_, denoted, small⟩
  obtain ⟨r, denotes, -, nearest, -⟩ := (each x).1 valued
  obtain rfl := denotes.eq denoted
  exact ⟨_, x, denoted, denoted', small, valued, same _ _ denoted denoted' ▸ valued, nearest⟩

end Abacus.Numeral
