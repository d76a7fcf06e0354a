import Abacus.Proofs.Binary64.Display
import Abacus.Proofs.Calculator.Text
import Abacus.Proofs.Decimal.Plain

/-!
# Displayed numbers entered again

A displayed number is an expression. Positional texts are a plain numeral with a sign in front or
not, and evaluate to the number that is displayed. A text with an exponent falls apart at its mark,
and the mark is what evaluation stops at.

## Main definitions

* `Binary64.IsModerate` — the magnitudes that are displayed positionally.

## Main statements

* `Binary64.isModerate_iff_nearestQuanta` — the bounds may be rounded to numbers first.
* `Binary64.isModerate_iff` — moderate magnitudes, told by the notation.
* `Calculator.outcomeOfText_plain` — a plain numeral with a sign evaluates to its number.
* `Calculator.outcomeOfText_scientific` — an exponent is not an expression.
* `Calculator.outcomeOfText_display` — which displayed numbers can be entered again.
-/

namespace Abacus

/-! ### Moderate magnitudes -/

namespace Binary64

variable {quanta : Nat}

/-- Zero, and the magnitudes from `10 ^ -4` up to `10 ^ 16`, exclusive. These are displayed without
an exponent, which the calculator reads; a text with an exponent is several tokens. -/
def IsModerate (quanta : Nat) : Prop :=
  quanta = 0 ∨ (10 : ℚ) ^ (-4 : Int) ≤ toRat quanta ∧ toRat quanta < (10 : ℚ) ^ (16 : Int)

/-- The number nearest to `10 ^ -4` is above it. -/
theorem le_toRat_nearestQuanta_neg_four :
    (10 : ℚ) ^ (-4 : Int) ≤ toRat (nearestQuanta (10 ^ (-4 : Int))) := by
  have enough : one ≤ roundToGrid (1 * one) 10000 * 10000 := by decide +kernel
  have value : (10 : ℚ) ^ (-4 : Int) = ((1 : ℕ) : ℚ) / (10000 : ℕ) := by norm_num
  rw [value, nearestQuanta_div (by decide), toRat, div_le_div_iff₀ (by norm_num) cast_one_pos,
    Nat.cast_one, one_mul]
  exact_mod_cast enough

/-- The number nearest to `10 ^ 16` is `10 ^ 16`. -/
theorem toRat_nearestQuanta_sixteen :
    toRat (nearestQuanta (10 ^ (16 : Int))) = (10 : ℚ) ^ (16 : Int) := by
  have value : (10 : ℚ) ^ (16 : Int) = ((10 ^ 16 : ℕ) : ℚ) := by norm_num
  rw [value, nearestQuanta_natCast (.inr ⟨by decide, by decide⟩), toRat_mul_one]

/-- The bounds are the same for the numbers nearest to them. -/
theorem isModerate_iff_nearestQuanta (onGrid : OnGrid quanta) :
    IsModerate quanta ↔ quanta = 0 ∨
      nearestQuanta (10 ^ (-4 : Int)) ≤ quanta ∧ quanta < nearestQuanta (10 ^ (16 : Int)) := by
  rw [IsModerate, ← not_le, ← not_le,
    nearestQuanta_zpow_le_iff onGrid le_toRat_nearestQuanta_neg_four,
    nearestQuanta_zpow_le_iff onGrid toRat_nearestQuanta_sixteen.ge]

/-- **The magnitudes that are displayed positionally.** The bounds are numbers themselves, so that
the shortest decimal is in the decade of the number at them. -/
theorem isModerate_iff (onGrid : OnGrid quanta) (nonzero : quanta ≠ 0) :
    IsModerate quanta ↔ -4 ≤ (shortestDecimal quanta).leadingExponent ∧
      (shortestDecimal quanta).leadingExponent < 16 := by
  rw [IsModerate, or_iff_right nonzero, ← not_le, ← not_le,
    le_leadingExponent_iff onGrid nonzero le_toRat_nearestQuanta_neg_four,
    le_leadingExponent_iff onGrid nonzero toRat_nearestQuanta_sixteen.ge]

/-- Decimals up to ten are read as finite numbers. -/
theorem isFinite_ofDecimal (negative : Bool) {d : Decimal} (h : d.toRat ≤ 10) :
    (ofDecimal negative d).isFinite = true := by
  have ten := nearestQuanta_natCast (.inl (by decide : 10 < 2 ^ 53))
  rw [Nat.cast_ofNat] at ten
  have room : 10 * one < limit := by decide +kernel
  have small : nearestQuanta d.toRat < limit :=
    ((nearestQuanta_mono d.toRat_nonneg h).trans_eq ten).trans_lt room
  have onGrid : OnGrid (nearestQuanta d.toRat) := ⟨small, spacing_dvd_roundToGrid _ _⟩
  rw [(ofDecimal_eq_finite_iff (h := onGrid)).2 rfl, isFinite]

end Binary64

/-! ### Tokens -/

namespace CharClass

/-- Digits and points are no blanks. -/
theorem of_eq_numeric {c : Char} (h : isNumeric c = true) : of c = .numeric := by
  have range : c.toNat = 46 ∨ 48 ≤ c.toNat ∧ c.toNat ≤ 57 := by
    rw [isNumeric, Bool.or_eq_true, beq_iff_eq] at h
    rcases h with digit | rfl
    · simp only [Char.isDigit, Bool.and_eq_true, decide_eq_true_eq, ge_iff_le,
        UInt32.le_iff_toNat_le] at digit
      exact .inr digit
    · exact .inl rfl
  have noBlank : Text.isBlank c = false := by
    simp [Text.isBlank, Text.blanks, CharSet.contains]
    omega
  rw [of, noBlank, if_neg Bool.false_ne_true, if_pos h]

end CharClass

namespace Token

open Binary64

/-- The token of a sign that is written. A number that is not negative is written without one. -/
def signTokens (negative : Bool) : List String := if negative then ["-"] else []

theorem Writes.sign_append {tokens : List String} {cs : List Char} (h : Writes tokens cs)
    (negative : Bool) : Writes (signTokens negative ++ tokens) (writeSign negative ++ cs) := by
  cases negative with
  | false => exact h
  | true =>
      refine h.singleton_cons (c := '-') (by decide) fun y _ => ?_
      rw [Bool.eq_false_iff, ne_eq, inOneToken_iff]
      rintro ⟨k, joins, rfl, -⟩
      cases joins

/-- A numeral before something else is a token. -/
theorem Writes.numeral_append {tokens : List String} {cs rest : List Char} (h : Writes tokens rest)
    (nonempty : cs ≠ []) (numeric : ∀ c ∈ cs, CharClass.isNumeric c = true)
    (other : ∀ u ∈ tokens.head?, ¬ IsRun .numeric u.toList) :
    Writes (String.ofList cs :: tokens) (cs ++ rest) := by
  have run : IsRun .numeric (String.ofList cs).toList := by
    rw [String.toList_ofList]
    exact ⟨nonempty, fun c member => CharClass.of_eq_numeric (numeric c member)⟩
  have text : cs ++ rest = [] ++ (String.ofList cs).toList ++ rest := by
    rw [List.nil_append, String.toList_ofList]
  rw [text]
  refine .cons (by simp) (.inr (.inl run)) (fun u first clash => ?_) h
  rcases clash with ⟨-, run'⟩ | ⟨run', -⟩
  · exact absurd run' (other u first)
  · obtain ⟨c, member⟩ := List.exists_mem_of_ne_nil _ run.1
    exact absurd ((run.2 c member).symm.trans (run'.2 c member)) (by decide)

end Token

/-! ### Outcomes -/

namespace Calculator

open Expression Token Binary64 Decimal

theorem notMem_symbols_of_value? {t : String} {x : Binary64} (h : Numeral.value? t = some x) :
    t ∉ Lexeme.symbols := by
  intro symbol
  simp only [Lexeme.symbols, List.mem_cons, List.not_mem_nil, or_false] at symbol
  rcases symbol with rfl | rfl | rfl | rfl | rfl | rfl <;> cases h

theorem ofToken_of_value? {t : String} {x : Binary64} (h : Numeral.value? t = some x) :
    Lexeme.ofToken arithmetic t = .number t x := by
  refine Lexeme.ofToken_of_numeral? ?_
  rw [Arithmetic.numeral?, if_neg (notMem_symbols_of_value? h)]
  exact h

/-- A numeral evaluates to its number, and a sign in front changes the sign. -/
theorem evaluate_signTokens (negative : Bool) {t : String} {x : Binary64}
    (h : Numeral.value? t = some x) :
    evaluate (signTokens negative ++ [t]) = .ok (if negative then x.neg else x) := by
  rw [evaluate, evaluate_eq_drive (by simp), lexemes_append, lexemes_cons, ofToken_of_value? h]
  cases negative <;> rfl

/-- A word behind a numeral is where evaluation stops. -/
theorem evaluate_signTokens_word (negative : Bool) {t : String} {x : Binary64} (rest : List String)
    (h : Numeral.value? t = some x) :
    evaluate (signTokens negative ++ t :: "e" :: rest) = .error (.unexpectedToken "e") := by
  have word : Lexeme.ofToken arithmetic "e" = .word "e" := by decide
  rw [evaluate, evaluate_eq_drive (by simp), lexemes_append, lexemes_cons, lexemes_cons,
    ofToken_of_value? h, word]
  cases negative <;> rfl

/-- Both readings give a value where the lenient one does. -/
theorem outcomeOfText_of_value {text : String} {v : Binary64}
    (h : outcomeOfText false text = .value v) (strict : Bool) :
    outcomeOfText strict text = .value v := by
  cases strict with
  | false => exact h
  | true => rw [outcomeOfText_true, firstStray?_of_value h, h]

theorem value?_ofList {cs : List Char} {d : Decimal} (plain : Numeral.plain? cs = some d)
    (finite : (ofDecimal false d).isFinite = true) :
    Numeral.value? (String.ofList cs) = some (ofDecimal false d) := by
  rw [Numeral.value?, String.toList_ofList, plain, Option.bind_some]
  dsimp only
  rw [if_pos finite]

theorem ne_nil_of_plain? {cs : List Char} {d : Decimal} (plain : Numeral.plain? cs = some d) :
    cs ≠ [] := by
  rintro rfl
  cases plain

/-- **A plain numeral with a sign evaluates to its number.** The sign is a token of its own, and
negates what the numeral is read as. -/
theorem outcomeOfText_plain (negative : Bool) {cs : List Char} {d : Decimal}
    (plain : Numeral.plain? cs = some d) (finite : (ofDecimal false d).isFinite = true)
    (strict : Bool) :
    outcomeOfText strict (String.ofList (writeSign negative ++ cs)) =
      .value (if negative then (ofDecimal false d).neg else ofDecimal false d) := by
  refine outcomeOfText_of_value ?_ strict
  have written : Writes [String.ofList cs] (cs ++ []) :=
    (Writes.nil (by simp)).numeral_append (ne_nil_of_plain? plain)
      (Numeral.isNumeric_of_plain? plain) (by simp)
  rw [List.append_nil] at written
  have tokens := written.sign_append negative
  rw [← String.toList_ofList (l := writeSign negative ++ cs)] at tokens
  rw [outcomeOfText_false, cut_eq_iff_writes.2 tokens, outcomeOfTokens,
    evaluate_signTokens negative (value?_ofList plain finite), Outcome.ofExcept]

/-- **An exponent is not an expression.** Its letter is a token that is no operator, behind a
complete number. -/
theorem outcomeOfText_scientific (negative : Bool) {ds : List Char} (h : Numeral.IsDigits ds)
    (leading : Int) :
    outcomeOfText false (String.ofList (writeSign negative ++ writeScientific ds leading)) =
      .failure "Unexpected token: e" := by
  obtain ⟨mantissa, d, split, plain, small⟩ := exists_writeScientific h leading
  obtain ⟨rest, written⟩ := exists_writes (writeExponent leading)
  have behind : ∀ y ∈ (writeExponent leading).head?, inOneToken 'e' y = false := by
    intro y first
    rw [writeExponent] at first
    split at first <;> cases first <;> decide
  have word : ¬ IsRun .numeric (String.singleton 'e').toList := fun run => by
    have other := run.2 'e' (by decide)
    revert other
    decide
  have tokens := ((written.singleton_cons (c := 'e') (by decide) behind).numeral_append
    (ne_nil_of_plain? plain) (Numeral.isNumeric_of_plain? plain)
    (by simpa using word)).sign_append negative
  rw [← split, ← String.toList_ofList (l := writeSign negative ++ _)] at tokens
  rw [outcomeOfText_false, cut_eq_iff_writes.2 tokens, outcomeOfTokens,
    show String.singleton 'e' = "e" from rfl,
    evaluate_signTokens_word negative rest
      (value?_ofList plain (isFinite_ofDecimal false small.le))]
  rfl

/-! ### Displayed numbers -/

/-- What is displayed of a moderate number. -/
theorem exists_plain?_display {quanta : Nat} (onGrid : OnGrid quanta) (h : IsModerate quanta) :
    ∃ d, Numeral.plain? ((shortestDecimal quanta).write displayLayout) = some d ∧
      ofDecimal false d = finite false quanta onGrid := by
  rw [displayLayout_eq]
  obtain ⟨d, plain, value⟩ := exists_plain?_write (d := shortestDecimal quanta)
    (by decide : (0 : Int) < (16 : Nat)) fun nonzero => by
      refine (isModerate_iff onGrid ?_).1 h
      rintro rfl
      obtain ⟨e, zero⟩ := exists_shortestDecimal_zero
      rw [zero] at nonzero
      exact nonzero rfl
  refine ⟨d, plain, ofDecimal_eq_finite_iff.2 ?_⟩
  rw [value, nearestQuanta_shortestDecimal onGrid]

/-- What is displayed of any other number. -/
theorem write_displayLayout_of_not_isModerate {quanta : Nat} (onGrid : OnGrid quanta)
    (h : ¬ IsModerate quanta) :
    (shortestDecimal quanta).write displayLayout =
      writeScientific (significantDigits (shortestDecimal quanta).significand)
        (shortestDecimal quanta).leadingExponent := by
  have nonzero : quanta ≠ 0 := fun zero => h (.inl zero)
  have outside := mt (isModerate_iff onGrid nonzero).2 h
  rw [write_of_ne_zero ((isShortest_shortestDecimal onGrid).significand_ne_zero nonzero)]
  exact if_neg outside

/-- **Displayed numbers can be entered again.** The text of a zero or of a number from `10 ^ -4` up
to `10 ^ 16`, exclusive, evaluates to the number itself, the sign of zero included. The text of any
other finite number has an exponent, and evaluates to no number at all. -/
theorem outcomeOfText_display (negative : Bool) {quanta : Nat} (onGrid : OnGrid quanta) :
    ∃ text, (finite negative quanta onGrid).display? none = some text ∧
      (IsModerate quanta →
        ∀ strict, outcomeOfText strict text = .value (finite negative quanta onGrid)) ∧
      (¬ IsModerate quanta →
        text = String.ofList (writeSign negative ++
          writeScientific (significantDigits (shortestDecimal quanta).significand)
            (shortestDecimal quanta).leadingExponent) ∧
        outcomeOfText false text = .failure "Unexpected token: e") := by
  refine ⟨_, display?_finite negative onGrid, fun moderate strict => ?_, fun other => ?_⟩
  · obtain ⟨d, plain, reads⟩ := exists_plain?_display onGrid moderate
    rw [outcomeOfText_plain negative plain (by rw [reads]; rfl), reads]
    cases negative <;> rfl
  · rw [write_displayLayout_of_not_isModerate onGrid other]
    exact ⟨rfl, outcomeOfText_scientific negative (isDigits_significantDigits _) _⟩

/-- Minus seven can be entered again, and `10 ^ 16` cannot. -/
theorem outcomeOfText_display_of_whole :
    (∃ (h : OnGrid (7 * one)) (text : String),
      (finite true (7 * one) h).display? none = some text ∧
      outcomeOfText true text = .value (finite true (7 * one) h)) ∧
    ∃ (h : OnGrid (10 ^ 16 * one)) (text : String),
      (finite false (10 ^ 16 * one) h).display? none = some text ∧
      outcomeOfText false text = .failure "Unexpected token: e" := by
  have onGrid : OnGrid (7 * one) := by decide +kernel
  have onGrid' : OnGrid (10 ^ 16 * one) := by decide +kernel
  obtain ⟨text, shown, again, -⟩ := outcomeOfText_display true onGrid
  obtain ⟨text', shown', -, never⟩ := outcomeOfText_display false onGrid'
  refine ⟨⟨onGrid, text, shown, again (.inr ?_) true⟩,
    ⟨onGrid', text', shown', (never ?_).2⟩⟩
  · rw [toRat_mul_one]
    norm_num
  · rintro (zero | ⟨-, below⟩)
    · exact Nat.mul_ne_zero (by decide : 10 ^ 16 ≠ 0) Binary64.one_pos.ne' zero
    · rw [toRat_mul_one] at below
      norm_num at below

end Calculator

end Abacus
