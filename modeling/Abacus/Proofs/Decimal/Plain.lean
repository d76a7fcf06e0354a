import Abacus.Token
import Abacus.Proofs.Decimal.Whole

/-!
# Texts as plain numerals

A positional text, whole numbers unmarked, is a plain numeral. A scientific text has the mark of its
exponent, which no plain numeral has, and a plain numeral before the mark.

## Main statements

* `Decimal.isNumeric_write` — the characters of positional texts.
* `Decimal.exists_plain?_write` — a positional text is a plain numeral of the same value.
* `Decimal.exists_writeScientific` — the numeral before an exponent.
-/

namespace Abacus

namespace CharClass

theorem isNumeric_of_isDigit {c : Char} (h : c.isDigit = true) : isNumeric c = true := by
  rw [isNumeric, h, Bool.true_or]

end CharClass

namespace Decimal

open Numeral

variable {d : Decimal} {ds : List Char} {leading : Int}

/-- Positional texts consist of digits and points. -/
theorem isNumeric_writePositional (h : IsDigits ds) :
    ∀ c ∈ writePositional [] ds leading, CharClass.isNumeric c = true := by
  have digits {cs : List Char} (sub : cs ⊆ ds) : ∀ c ∈ cs, CharClass.isNumeric c = true :=
    fun c member => CharClass.isNumeric_of_isDigit (h.2 c (sub member))
  have zeros {k : Nat} : ∀ c ∈ List.replicate k '0', CharClass.isNumeric c = true :=
    fun c member => CharClass.isNumeric_of_isDigit (isDigit_of_mem_zeros member)
  rw [writePositional]
  split
  · exact List.forall_mem_append.2 ⟨List.forall_mem_cons.2 ⟨rfl, List.forall_mem_cons.2
      ⟨rfl, zeros⟩⟩, digits (List.Subset.refl ds)⟩
  · dsimp only
    split
    · rw [List.append_nil]
      exact List.forall_mem_append.2 ⟨digits (List.Subset.refl ds), zeros⟩
    · exact List.forall_mem_append.2 ⟨digits (List.take_subset _ ds),
        List.forall_mem_cons.2 ⟨rfl, digits (List.drop_subset _ ds)⟩⟩

theorem isNumeric_write {below : Int} (positive : 0 < below)
    (h : d.significand ≠ 0 → -4 ≤ d.leadingExponent ∧ d.leadingExponent < below) :
    ∀ c ∈ d.write ⟨below, []⟩, CharClass.isNumeric c = true := by
  have digits := isDigits_significantDigits d.significand
  by_cases zero : d.significand = 0
  · rw [write]
    simp only [zero, if_true] at digits ⊢
    rw [if_pos ⟨by decide, positive⟩]
    exact isNumeric_writePositional digits
  · rw [write_of_ne_zero zero, if_pos (h zero)]
    exact isNumeric_writePositional digits

/-- A positional text is a plain numeral of the same value. Its significand need not be that of the
decimal, for zeros may have been added. -/
theorem exists_plain?_write {below : Int} (positive : 0 < below)
    (h : d.significand ≠ 0 → -4 ≤ d.leadingExponent ∧ d.leadingExponent < below) :
    ∃ d', plain? (d.write ⟨below, []⟩) = some d' ∧ d'.toRat = d.toRat := by
  obtain ⟨d', spelled, value⟩ :=
    spells_write (.inl rfl : (⟨below, []⟩ : Layout).wholeMark = [] ∨ _) d
  refine ⟨d', plain?_of_spells spelled fun c member mark => ?_, value⟩
  have numeric := isNumeric_write positive h c member
  rcases mark with rfl | rfl <;> cases numeric

theorem ofDigits_lt {cs : List Char} (h : ∀ c ∈ cs, c.isDigit = true) :
    ofDigits cs < 10 ^ cs.length := by
  induction cs using List.reverseRecOn with
  | nil => decide
  | append_singleton cs c ih =>
      have front := ih fun c member => h c (List.mem_append_left _ member)
      have last := digitValue_lt (h c (by simp))
      rw [ofDigits_append_singleton, List.length_append, List.length_singleton, Nat.pow_succ]
      omega

/-- Up to its mark, a text with an exponent is a plain numeral below ten. This is the part that is a
token of its own. -/
theorem exists_writeScientific (h : IsDigits ds) (leading : Int) :
    ∃ mantissa d', writeScientific ds leading = mantissa ++ 'e' :: writeExponent leading ∧
      plain? mantissa = some d' ∧ d'.toRat < 10 := by
  have below {ps : List Char} {c : Char} (digits : ∀ x ∈ c :: ps, x.isDigit = true) :
      (Decimal.mk (ofDigits ([c] ++ ps)) (-ps.length)).toRat < 10 := by
    have less := ofDigits_lt digits
    rw [toRat, zpow_neg, zpow_natCast, ← div_eq_mul_inv, div_lt_iff₀ (by positivity), mul_comm,
      ← pow_succ]
    exact_mod_cast less
  have single {c : Char} (digit : c.isDigit = true) : IsDigits [c] :=
    ⟨by simp, List.forall_mem_singleton.2 digit⟩
  rcases ds with _ | ⟨c, _ | ⟨c', rest⟩⟩
  · exact absurd rfl h.1
  · refine ⟨[c], _, rfl, ?_, below h.2⟩
    exact plain?_append (single (h.2 c (by simp))) .none
  · refine ⟨c :: '.' :: c' :: rest, _, rfl, ?_, below h.2⟩
    exact plain?_append (single (h.2 c (by simp)))
      (.digits ⟨by simp, fun x member => h.2 x (List.mem_cons_of_mem c member)⟩)

end Decimal

end Abacus
