import Abacus.Calculator
import Abacus.Proofs.Expression.FirstFault
import Abacus.Proofs.Token.Pass

/-!
# Expressions in texts

The outcome of a text is the outcome of its tokens, wherever the blanks between them stand. A strict
reading differs from a lenient one in the fault of a text with a stray character, and in nothing
else: such a text has no value either way.

## Main statements

* `Calculator.outcomeOfText_eq` — a text is scanned as it is, its blanks at the ends included.
* `Calculator.strict_agrees_with_lenient` — the same values, and the same outcomes without strays.
* `Calculator.outcomeOfText_of_writes` — the outcome of a text is that of the tokens it writes.
-/

namespace Abacus

/-! ### Characters of tokens -/

namespace Numeral

/-- A plain numeral consists of digits and points. -/
theorem isNumeric_of_plain? {cs : List Char} {d : Decimal} (h : plain? cs = some d) :
    ∀ c ∈ cs, CharClass.isNumeric c = true := by
  have whole : ∀ c ∈ cs.takeWhile Char.isDigit, CharClass.isNumeric c = true := by
    intro c member
    simp [CharClass.isNumeric, List.mem_takeWhile_imp member]
  have places : ∀ c ∈ cs.dropWhile Char.isDigit, CharClass.isNumeric c = true := by
    rw [plain?] at h
    cases left : cs.dropWhile Char.isDigit with
    | nil => simp
    | cons point places =>
        simp only [left, Option.ite_none_right_eq_some, Bool.and_eq_true, beq_iff_eq,
          List.all_eq_true] at h
        obtain ⟨⟨⟨rfl, digits⟩, -⟩, -⟩ := h
        refine List.forall_mem_cons.2 ⟨rfl, fun c member => ?_⟩
        simp [CharClass.isNumeric, digits c member]
  intro c member
  rw [← List.takeWhile_append_dropWhile (p := Char.isDigit) (l := cs), List.mem_append] at member
  exact member.elim (whole c) (places c)

/-- A numeral consists of digits and points. -/
theorem isNumeric_of_value? {t : String} {x : Binary64} (h : value? t = some x) :
    ∀ c ∈ t.toList, CharClass.isNumeric c = true := by
  obtain ⟨d, plain, -⟩ := Option.bind_eq_some_iff.1 h
  exact isNumeric_of_plain? plain

end Numeral

namespace Calculator

/-- The outcome of a text, without trimming: blanks at the ends do not matter, and a text without
tokens is an empty expression. -/
theorem outcomeOfText_eq (strict : Bool) (text : String) :
    outcomeOfText strict text =
      match Token.scan strict text with
      | .error fault => .failure fault.message
      | .ok tokens => outcomeOfTokens tokens := by
  rw [outcomeOfText, Token.scan_trim]
  split
  · next empty =>
      have nothing : Text.trim text = "" := by simpa using empty
      have scanned : Token.scan strict text = .ok [] := by
        rw [← Token.scan_trim, nothing]
        cases strict <;> rfl
      rw [scanned]
      rfl
  · rfl

theorem outcomeOfText_false (text : String) :
    outcomeOfText false text = outcomeOfTokens (Token.cut text) := by
  rw [outcomeOfText_eq, Token.scan_false]

/-- A lenient reading and a strict one differ on texts with a stray character only. -/
theorem outcomeOfText_true (text : String) :
    outcomeOfText true text =
      match Token.firstStray? text with
      | some c => .failure (Fault.invalidCharacter c).message
      | none => outcomeOfText false text := by
  rw [outcomeOfText_eq, outcomeOfText_false, Token.scan_true]
  cases Token.firstStray? text <;> rfl

/-- Tokens with a value have no character of an unknown class. -/
theorem of_ne_other_of_value {tokens : List String} {v : Binary64}
    (h : outcomeOfTokens tokens = .value v) :
    ∀ t ∈ tokens, ∀ c ∈ t.toList, CharClass.of c ≠ .other := by
  intro t among c member other
  obtain ⟨noBlank, noNumeric, noSymbol⟩ := CharClass.of_eq_other_iff.1 other
  cases evaluated : evaluate tokens with
  | error fault => simp [outcomeOfTokens, evaluated, Outcome.ofExcept] at h
  | ok x =>
      rcases Expression.legible_of_evaluate evaluated t among with symbol | numeral
      · simp only [Lexeme.symbols, List.mem_cons, List.not_mem_nil, or_false] at symbol
        rcases symbol with rfl | rfl | rfl | rfl | rfl | rfl <;>
          simp_all [CharClass.symbols]
      · obtain ⟨y, reading⟩ := Option.isSome_iff_exists.1 numeral
        rw [Arithmetic.numeral?] at reading
        split at reading
        · cases reading
        · simp [Numeral.isNumeric_of_value? reading c member] at noNumeric

/-- A text with a value has no character of an unknown class. -/
theorem firstStray?_of_value {text : String} {v : Binary64}
    (h : outcomeOfText false text = .value v) : Token.firstStray? text = none := by
  rw [outcomeOfText_false] at h
  rw [Token.firstStray?, List.find?_eq_none]
  intro c member
  rw [beq_iff_eq]
  intro other
  obtain ⟨t, among, inToken⟩ :=
    (Token.writes_cut text).exists_mem member (CharClass.of_eq_other_iff.1 other).1
  exact of_ne_other_of_value h t among c inToken other

/-- **Strict and lenient readings agree.** They give the same values to the same texts. Without a
stray character they have the same outcome; with one, a strict reading names the first of them, and
a lenient reading fails as well, wherever the character stands. -/
theorem strict_agrees_with_lenient (text : String) :
    (∀ v, outcomeOfText true text = .value v ↔ outcomeOfText false text = .value v) ∧
    ((∀ c ∈ text.toList, CharClass.of c ≠ .other) →
      outcomeOfText true text = outcomeOfText false text) ∧
    ∀ before c after, text.toList = before ++ c :: after →
      (∀ b ∈ before, CharClass.of b ≠ .other) → CharClass.of c = .other →
      outcomeOfText true text = .failure ("Invalid character: " ++ String.singleton c) ∧
      ∃ message, outcomeOfText false text = .failure message := by
  refine ⟨fun v => ?_, fun clean => ?_, fun before c after split clean other => ?_⟩
  · rw [outcomeOfText_true]
    cases stray : Token.firstStray? text with
    | none => rfl
    | some c =>
        simp only [reduceCtorEq, false_iff]
        intro value
        simp [firstStray?_of_value value] at stray
  · have none : Token.firstStray? text = none := by
      simpa [Token.firstStray?, List.find?_eq_none] using clean
    rw [outcomeOfText_true, none]
  · have stray : Token.firstStray? text = some c := by
      rw [Token.firstStray?, List.find?_eq_some_iff_append]
      exact ⟨by simpa using other, before, after, split, by simpa using clean⟩
    refine ⟨by rw [outcomeOfText_true, stray]; rfl, ?_⟩
    cases lenient : outcomeOfText false text with
    | value v => simp [firstStray?_of_value lenient] at stray
    | failure message => exact ⟨message, rfl⟩

/-- Of two strays the first is named. -/
theorem strict_names_first_stray :
    outcomeOfText true " 1+a b" = .failure "Invalid character: a" ∧
    ∃ message, outcomeOfText false " 1+a b" = .failure message := by
  have named : "Invalid character: a" = "Invalid character: " ++ String.singleton 'a' := by
    decide
  have split : " 1+a b".toList = [' ', '1', '+'] ++ 'a' :: [' ', 'b'] := by decide
  have clean : ∀ b ∈ [' ', '1', '+'], CharClass.of b ≠ .other := by
    intro b member
    simp only [List.mem_cons, List.not_mem_nil, or_false] at member
    rcases member with rfl | rfl | rfl <;> decide
  rw [named]
  exact (strict_agrees_with_lenient " 1+a b").2.2 _ _ _ split clean (by decide)

/-- **Blanks between tokens do not matter.** A text that writes tokens, with any blanks around them,
is cut into just these tokens and has their outcome; without tokens that is an empty expression.
What a text is cut into are tokens, so a text that writes the tokens of another one has the outcome
of that one, in either mode. -/
theorem outcomeOfText_of_writes :
    (∀ (tokens : List String) (text : String), Token.Writes tokens text.toList →
      Token.scan false text = .ok tokens ∧
      outcomeOfText false text = outcomeOfTokens tokens) ∧
    outcomeOfTokens [] = .failure "Empty expression" ∧
    (∀ (strict : Bool) (text : String) (tokens : List String),
      Token.scan strict text = .ok tokens → ∀ t ∈ tokens, Token.IsToken t) ∧
    ∀ (strict : Bool) (text text' : String), Token.Writes (Token.cut text) text'.toList →
      outcomeOfText strict text' = outcomeOfText strict text := by
  refine ⟨fun tokens text written => ?_, rfl, fun strict text tokens scanned => ?_,
    fun strict text text' written => ?_⟩
  · have found : Token.cut text = tokens := Token.cut_eq_iff_writes.2 written
    exact ⟨by rw [Token.scan_false, found], by rw [outcomeOfText_false, found]⟩
  · rw [Token.eq_cut_of_scan scanned]
    exact (Token.writes_cut text).isToken
  · rw [outcomeOfText_eq, outcomeOfText_eq, written.scan_eq]

/-- Blanks before the first token and none around a symbol. -/
theorem outcomeOfText_unspaced_sum :
    outcomeOfText false " 12+.5" = outcomeOfTokens ["12", "+", ".5"] := by
  have found : Token.cut " 12+.5" = ["12", "+", ".5"] := by decide
  exact (outcomeOfText_of_writes.1 _ _ (Token.cut_eq_iff_writes.1 found)).2

end Calculator

end Abacus
