import Abacus.Proofs.Calculator.Text

/-!
# Empty expressions

A text is called an empty expression if there is nothing in it but blanks. No other text fails with
these words: a reading that has begun meets other faults, and their wordings differ.

## Main statements

* `Expression.evaluate_eq_emptyExpression_iff` — only no tokens at all are an empty expression.
* `Calculator.outcomeOfText_eq_emptyExpression_iff` — the texts with this outcome are blank.
-/

namespace Abacus

/-- The wording of an empty expression is that of no other fault: they differ in the first two
letters. -/
theorem Fault.message_eq_emptyExpression_iff {fault : Fault} :
    fault.message = "Empty expression" ↔ fault = .emptyExpression := by
  refine ⟨fun h => ?_, fun h => h ▸ rfl⟩
  have letters := congrArg (fun s : String => s.toList.take 2) h
  cases fault with
  | emptyExpression => rfl
  | unexpectedEnd | missingClosingParen | divisionByZero | tooDeep =>
      exact absurd h (by decide)
  | invalidToken token =>
      change ("Invalid token: " ++ token).toList.take 2 = _ at letters
      simp at letters
  | unexpectedToken token =>
      change ("Unexpected token: " ++ token).toList.take 2 = _ at letters
      simp at letters
  | invalidCharacter c =>
      change ("Invalid character: " ++ String.singleton c).toList.take 2 = _ at letters
      simp at letters

namespace Expression

variable {α : Type} {A : Arithmetic α} {limit : Option Nat}

/-- A level reads at least one lexeme before it fails, or misses one. -/
theorem Reads.ne_emptyExpression {level : Level α} {d : Nat} {input : List (Lexeme α)}
    {result : Except Fault (α × List (Lexeme α))} (h : Reads A limit level d input result) :
    result ≠ .error .emptyExpression := by
  induction h with
  | expressionFault _ ih | sumsFault _ ih | termFault _ ih | productsFault _ ih
  | signFault _ _ ih | groupFault _ _ ih => simpa using ih
  | expression _ _ _ ih | sums _ _ _ ih | term _ _ _ ih | products _ _ _ _ ih => exact ih
  | productsZero _ zero => simp [(Scale.combine_eq_error_iff.1 zero).2.2]
  | sumsEnd | productsEnd | factorEnd | signDeep | sign | number | groupDeep | group | groupOpen
  | other => simp

/-- Only no tokens at all are an empty expression. A pair of parentheses with nothing inside is a
fault of another kind. -/
theorem evaluate_eq_emptyExpression_iff {tokens : List String} :
    evaluate A limit tokens = .error .emptyExpression ↔ tokens = [] := by
  refine ⟨fun h => ?_, fun h => h ▸ rfl⟩
  by_contra nonempty
  rw [evaluate_eq_of_ne_nil nonempty, evaluateLexemes_eq] at h
  have reading := reads_read A limit .expression 0 (lexemes A tokens)
  rcases found : read A limit .expression 0 (lexemes A tokens) with fault | ⟨x, _ | ⟨l, rest⟩⟩
  · rw [found] at reading h
    exact reading.ne_emptyExpression (by simpa using h)
  · simp [found] at h
  · simp [found] at h

end Expression

namespace Calculator

/-- A text that is not blank has tokens. -/
theorem cut_ne_nil {text : String} (h : Text.trim text ≠ "") : Token.cut text ≠ [] := by
  intro nothing
  have blank : ∀ c ∈ text.toList, Text.isBlank c = true := Token.cut_eq_nil_iff.1 nothing
  refine h ?_
  rw [Text.trim, Text.trimBoth, List.dropWhile_eq_nil_iff.2 blank]
  rfl

/-- A scan does not call a text empty. -/
theorem scan_ne_emptyExpression (strict : Bool) (text : String) :
    Token.scan strict text ≠ .error .emptyExpression := by
  cases strict with
  | false => simp
  | true =>
      rw [Token.scan_true]
      cases Token.firstStray? text <;> simp

/-- Tokens have this outcome only if there are none. -/
theorem outcomeOfTokens_eq_emptyExpression_iff {tokens : List String} :
    outcomeOfTokens tokens = .failure "Empty expression" ↔ tokens = [] := by
  refine ⟨fun h => ?_, fun h => h ▸ rfl⟩
  rw [outcomeOfTokens, evaluate] at h
  cases evaluated : Expression.evaluate arithmetic (some depthLimit) tokens with
  | ok x => simp [evaluated, Outcome.ofExcept] at h
  | error fault =>
      rw [evaluated] at h
      rw [Fault.message_eq_emptyExpression_iff.1 (Outcome.failure.inj h)] at evaluated
      exact Expression.evaluate_eq_emptyExpression_iff.1 evaluated

/-- **Only blank texts are empty expressions.** Every other text has a token, and no evaluation of
tokens ends in this fault. -/
theorem outcomeOfText_eq_emptyExpression_iff {strict : Bool} {text : String} :
    outcomeOfText strict text = .failure "Empty expression" ↔ Text.trim text = "" := by
  refine ⟨fun h => ?_, fun h => by rw [outcomeOfText, h]; rfl⟩
  by_contra visible
  rw [outcomeOfText_eq] at h
  cases scanned : Token.scan strict text with
  | error fault =>
      rw [scanned] at h
      rw [Fault.message_eq_emptyExpression_iff.1 (Outcome.failure.inj h)] at scanned
      exact scan_ne_emptyExpression strict text scanned
  | ok tokens =>
      rw [scanned, Token.eq_cut_of_scan scanned] at h
      exact cut_ne_nil visible (outcomeOfTokens_eq_emptyExpression_iff.1 h)

end Calculator

end Abacus
