import Abacus.Proofs.Expression.FirstFault

/-!
# Tokens that can be completed

Tokens can be continued to an expression with a value exactly as long as evaluation has not failed
at one of them. A failure at a token stays whatever follows. Where only the end of the tokens is at
fault, an operand and closing parentheses complete them, with a one added in front of a parenthesis
where a zero would divide; this nests no deeper.

## Main definitions

* `Arithmetic.HasOne` — a numeral that makes divisors of operands and of zeros.
* `Takes` — a scan gets to the end of the tokens.

## Main statements

* `exists_drive_eq_ok` — every state of the machine can be completed.
* `exists_run_eq_ok_iff` — what evaluation says of tokens that it has not failed at.
* `exists_append_eq_ok_iff` — which tokens can be completed, and what becomes of the others.
-/

namespace Abacus

variable {α : Type}

/-- A numeral that completes expressions: it is not zero, a zero to which it is added is not zero,
and signs make no zero of another number, nor another number of a zero. -/
structure Arithmetic.HasOne (A : Arithmetic α) (token : String) (one : α) : Prop where
  reads : A.numeral? token = some one
  isZero_one : A.isZero one = false
  isZero_add : ∀ x, A.isZero x = true → A.isZero (A.add x one) = false
  isZero_neg : ∀ x, A.isZero (A.neg x) = A.isZero x

/-- The calculator has a one. -/
theorem Calculator.hasOne_arithmetic : arithmetic.HasOne "1" (Binary64.ofInt 1) where
  reads := by decide +kernel
  isZero_one := by decide +kernel
  isZero_add x zero := by
    -- There are two zeros, and the sum is computed for each.
    have sums : ∀ negative, arithmetic.isZero
        (arithmetic.add (Binary64.zero negative) (Binary64.ofInt 1)) = false := by decide +kernel
    cases x with
    | finite negative quanta h =>
        obtain rfl : quanta = 0 := by simpa [arithmetic, Binary64.isZero] using zero
        exact sums negative
    | nan | infinite => cases zero
  isZero_neg := Binary64.isZero_neg

namespace Expression

variable {A : Arithmetic α} {limit : Option Nat} {token : String} {one : α}

/-! ### Completing what was begun -/

/-- The signs that wait for an operand leave it a zero or another number. -/
theorem isZero_signed (h : A.HasOne token one) (frame : Frame α) (x : α) :
    A.isZero (frame.signed A x) = A.isZero x := by
  unfold Frame.signed
  induction frame.signs generalizing x with
  | nil => rfl
  | cons sign signs ih =>
      rw [List.foldl_cons, ih]
      cases sign with
      | plus => rfl
      | minus => exact h.isZero_neg x

/-- An operand that is not zero completes a factor, even where it divides. Signs before it do not
matter to that. -/
theorem exists_complete_eq_ok (h : A.HasOne token one) (frame : Frame α) (outer : List (Frame α))
    {x : α} (nonzero : A.isZero x = false) :
    ∃ y, frame.complete A outer x = .ok (.operator frame.sum y outer) := by
  cases completed : frame.complete A outer x with
  | ok q =>
      obtain ⟨y, rfl⟩ := complete_eq_ok completed
      exact ⟨y, rfl⟩
  | error fault =>
      rw [Frame.complete] at completed
      rcases waiting : frame.product with _ | ⟨y, scale⟩ <;> rw [waiting] at completed
      · cases completed
      · cases combined : scale.combine A y (frame.signed A x) with
        | ok z => simp [combined, Except.map] at completed
        | error fault' =>
            obtain ⟨-, zero, -⟩ := Scale.combine_eq_error_iff.1 combined
            simp [isZero_signed h, nonzero] at zero

/-- A group is closed, with a one added to its value if that is zero. So what the group makes is
never a zero divisor. -/
theorem exists_drive_closing (h : A.HasOne token one) (limit : Option Nat)
    (sum : Option (α × Sign)) (x : α) (frame : Frame α) (outer : List (Frame α)) :
    ∃ (before : List String) (y : α), ∀ rest,
      drive A limit (.operator sum x (frame :: outer)) (lexemes A (before ++ rest)) =
        drive A limit (.operator frame.sum y outer) (lexemes A rest) := by
  cases zero : A.isZero (total A sum x) with
  | false =>
      obtain ⟨y, completed⟩ := exists_complete_eq_ok h frame outer zero
      refine ⟨[")"], y, fun rest => ?_⟩
      rw [List.singleton_append, lexemes_cons, Lexeme.ofToken_closing, drive_cons, step, completed]
      rfl
  | true =>
      obtain ⟨y, completed⟩ := exists_complete_eq_ok h frame outer (h.isZero_add _ zero)
      refine ⟨[Sign.plus.token, token, ")"], y, fun rest => ?_⟩
      simp only [List.cons_append, List.nil_append, lexemes_cons, Sign.ofToken_token,
        Lexeme.ofToken_of_numeral? h.reads, Lexeme.ofToken_closing]
      calc drive A limit (.operator sum x (frame :: outer))
            (.plus :: .number token one :: .closing :: lexemes A rest)
        _ = drive A limit (.operator (some (total A sum x, .plus)) one (frame :: outer))
              (.closing :: lexemes A rest) := rfl
        _ = (frame.complete A outer (A.add (total A sum x) one)).bind fun q =>
              drive A limit q (lexemes A rest) := drive_cons ..
        _ = drive A limit (.operator frame.sum y outer) (lexemes A rest) := by
              rw [completed]
              rfl

/-- **After an operand,** closing all groups completes the expression. A zero divisor may come of
closing a group, and then the group gets another term first. -/
theorem exists_drive_operator (h : A.HasOne token one) (limit : Option Nat)
    (sum : Option (α × Sign)) (x : α) (outer : List (Frame α)) :
    ∃ rest v, drive A limit (.operator sum x outer) (lexemes A rest) = .ok v := by
  induction outer generalizing sum x with
  | nil => exact ⟨[], total A sum x, rfl⟩
  | cons frame outer ih =>
      obtain ⟨before, y, closed⟩ := exists_drive_closing h limit sum x frame outer
      obtain ⟨rest, v, driven⟩ := ih frame.sum y
      exact ⟨before ++ rest, v, (closed rest).trans driven⟩

/-- **Every state of the machine can be completed,** whatever the limit. An operand is supplied if
one is due; no further level is entered, so the limit is not met. -/
theorem exists_drive_eq_ok (h : A.HasOne token one) (limit : Option Nat) (q : State α) :
    ∃ rest v, drive A limit q (lexemes A rest) = .ok v := by
  cases q with
  | operator sum x outer => exact exists_drive_operator h limit sum x outer
  | operand frame outer =>
      obtain ⟨y, completed⟩ := exists_complete_eq_ok h frame outer h.isZero_one
      obtain ⟨rest, v, driven⟩ := exists_drive_operator h limit frame.sum y outer
      refine ⟨token :: rest, v, ?_⟩
      rw [lexemes_cons, Lexeme.ofToken_of_numeral? h.reads, drive_cons, step, completed]
      exact driven

/-! ### Failures that stay -/

/-- A failure at a token stays whatever follows. A failure at the end of the tokens is of another
kind, and may go away. -/
theorem evaluate_append_of_run {tokens : List String} (nonempty : tokens ≠ []) {fault : Fault}
    (h : run A limit .start (lexemes A tokens) = .error fault) (rest : List String) :
    evaluate A limit (tokens ++ rest) = .error fault := by
  rw [evaluate_eq_drive (by simp [nonempty]), drive, lexemes_append, run_append, h]
  rfl

/-- A scan gets to the end of the tokens, so that a fault can only be that they end. Such tokens can
be completed, unless evaluation fails on the way. -/
def Takes (A : Arithmetic α) (tokens : List String) : Prop :=
  ∃ o, Outline.run A .start tokens = .ok o

theorem takes_of_run {tokens : List String} {q : State α}
    (h : run A limit .start (lexemes A tokens) = .ok q) : Takes A tokens :=
  ⟨_, outline_run_of_run h⟩

/-- The faults of the machine at a token: a zero divisor, the nesting, or what stops a scan. That
the tokens end too soon is none of these. -/
theorem run_eq_error_cases {tokens : List String} {fault : Fault}
    (h : run A limit .start (lexemes A tokens) = .error fault) :
    fault = .divisionByZero ∨ fault = .tooDeep ∨
    (¬ Takes A tokens ∧ (fault = .missingClosingParen ∨
      ∃ t ∈ tokens, fault = .invalidToken t ∨ fault = .unexpectedToken t)) := by
  obtain ⟨before, t, after, q, rfl, reached, failed⟩ := exists_step_eq_error_of_run h
  rcases step_eq_error_cases failed with zero | ⟨deep, -⟩ | stopped
  · exact .inl zero
  · exact .inr (.inl deep)
  · refine .inr (.inr ⟨?_, ?_⟩)
    · rintro ⟨o, walked⟩
      rw [outline_run_of_stop reached stopped after] at walked
      cases walked
    · have member : t ∈ before ++ t :: after := by simp
      rcases Outline.step_eq_error_cases stopped with wrong | isOpen | wrong
      · exact .inr ⟨t, member, .inl wrong⟩
      · exact .inl isOpen
      · exact .inr ⟨t, member, .inr wrong⟩

/-- **What evaluation says of tokens that it has not failed at:** they have a value, or it is their
end that is at fault. -/
theorem exists_run_eq_ok_iff {tokens : List String} (nonempty : tokens ≠ []) :
    (∃ q, run A limit .start (lexemes A tokens) = .ok q) ↔
      (∃ v, evaluate A limit tokens = .ok v) ∨ evaluate A limit tokens = .error .unexpectedEnd ∨
        (evaluate A limit tokens = .error .missingClosingParen ∧ Takes A tokens) := by
  rw [evaluate_eq_drive nonempty, drive]
  cases ran : run A limit .start (lexemes A tokens) with
  | ok q =>
      refine iff_of_true ⟨q, rfl⟩ ?_
      cases q with
      | operand frame outer => exact .inr (.inl rfl)
      | operator sum x outer =>
          cases outer with
          | nil => exact .inl ⟨_, rfl⟩
          | cons frame outer => exact .inr (.inr ⟨rfl, takes_of_run ran⟩)
  | error fault =>
      refine iff_of_false (by simp) ?_
      rcases run_eq_error_cases ran with rfl | rfl | ⟨stopped, isOpen | ⟨t, -, wrong | wrong⟩⟩
      · simp [Except.bind]
      · simp [Except.bind]
      · simp [Except.bind, stopped, isOpen]
      · simp [Except.bind, wrong]
      · simp [Except.bind, wrong]

/-- **Which tokens can be completed.** Tokens can be continued to an expression that the calculator
evaluates if and only if they have a value, or an operand is missing at their end, or a closing
parenthesis is. All others have a fault that stays whatever follows: a zero divisor, the nesting, or
one of the tokens, where an operand, an operator or a closing parenthesis was to come. -/
theorem exists_append_eq_ok_iff (limit : Option Nat) {tokens : List String}
    (nonempty : tokens ≠ []) :
    ((∃ rest v, evaluate Calculator.arithmetic limit (tokens ++ rest) = .ok v) ↔
      (∃ v, evaluate Calculator.arithmetic limit tokens = .ok v) ∨
      evaluate Calculator.arithmetic limit tokens = .error .unexpectedEnd ∨
      (evaluate Calculator.arithmetic limit tokens = .error .missingClosingParen ∧
        Takes Calculator.arithmetic tokens)) ∧
    ((¬ ∃ rest v, evaluate Calculator.arithmetic limit (tokens ++ rest) = .ok v) →
      ∃ fault, (∀ rest, evaluate Calculator.arithmetic limit (tokens ++ rest) = .error fault) ∧
        (fault = .divisionByZero ∨ fault = .tooDeep ∨
        (¬ Takes Calculator.arithmetic tokens ∧ (fault = .missingClosingParen ∨
          ∃ t ∈ tokens, fault = .invalidToken t ∨ fault = .unexpectedToken t)))) := by
  have taken : (∃ rest v, evaluate Calculator.arithmetic limit (tokens ++ rest) = .ok v) ↔
      ∃ q, run Calculator.arithmetic limit .start (lexemes Calculator.arithmetic tokens) =
        .ok q := by
    constructor
    · rintro ⟨rest, v, evaluated⟩
      cases ran : run Calculator.arithmetic limit .start (lexemes Calculator.arithmetic tokens) with
      | ok q => exact ⟨q, rfl⟩
      | error fault => cases evaluated.symm.trans (evaluate_append_of_run nonempty ran rest)
    · rintro ⟨q, ran⟩
      obtain ⟨rest, v, driven⟩ := exists_drive_eq_ok Calculator.hasOne_arithmetic limit q
      refine ⟨rest, v, (evaluate_eq_drive (by simp [nonempty])).trans ?_⟩
      rw [drive, lexemes_append, run_append, ran]
      exact driven
  refine ⟨taken.trans (exists_run_eq_ok_iff nonempty), fun never => ?_⟩
  rw [taken] at never
  cases ran : run Calculator.arithmetic limit .start (lexemes Calculator.arithmetic tokens) with
  | ok q => exact absurd ⟨q, ran⟩ never
  | error fault => exact ⟨fault, evaluate_append_of_run nonempty ran, run_eq_error_cases ran⟩

/-- A group that divides can be completed behind a zero, but a zero that divides cannot. -/
theorem exists_append_zero_in_group :
    (∃ rest v, evaluate Calculator.arithmetic (some Calculator.depthLimit)
      (["1", "/", "(", "0"] ++ rest) = .ok v) ∧
    ∃ fault, ∀ rest, evaluate Calculator.arithmetic (some Calculator.depthLimit)
      (["1", "/", "0"] ++ rest) = .error fault := by
  obtain ⟨one, readsOne⟩ : ∃ x, Calculator.arithmetic.numeral? "1" = some x :=
    Option.isSome_iff_exists.1 (by decide +kernel)
  obtain ⟨zero, readsZero, isZero⟩ :
      ∃ x, Calculator.arithmetic.numeral? "0" = some x ∧ Calculator.arithmetic.isZero x = true := by
    have read : (Calculator.arithmetic.numeral? "0").any Calculator.arithmetic.isZero = true := by
      decide
    simpa [Option.any_eq_true] using read
  have taken : run Calculator.arithmetic (some Calculator.depthLimit) .start
      (lexemes Calculator.arithmetic ["1", "/", "(", "0"]) =
      .ok (.operator none zero [⟨none, some (one, .divide), []⟩]) := by
    simp only [lexemes_cons, Lexeme.ofToken_of_numeral? readsOne,
      Lexeme.ofToken_of_numeral? readsZero]
    rfl
  have stopped : evaluate Calculator.arithmetic (some Calculator.depthLimit) ["1", "/", "0"] =
      .error .divisionByZero := by
    have divides : Scale.divide.combine Calculator.arithmetic one zero = .error .divisionByZero :=
      Scale.combine_eq_error_iff.2 ⟨rfl, isZero, rfl⟩
    rw [evaluate_eq_drive (by decide)]
    simp only [lexemes_cons, Lexeme.ofToken_of_numeral? readsOne,
      Lexeme.ofToken_of_numeral? readsZero]
    calc drive Calculator.arithmetic (some Calculator.depthLimit) .start
          [.number "1" one, .divide, .number "0" zero]
      _ = drive Calculator.arithmetic (some Calculator.depthLimit)
            (.operand ⟨none, some (one, .divide), []⟩ []) [.number "0" zero] := rfl
      _ = .error .divisionByZero := by
            rw [drive_cons, step]
            simp only [Frame.complete, Frame.signed, List.foldl_nil, divides, Except.map,
              Except.bind]
  -- Behind the first tokens a run waits for the end of a group, so something completes them. The
  -- others fail, and whatever follows cannot change that.
  constructor
  · exact (exists_append_eq_ok_iff _ (by decide)).1.2
      ((exists_run_eq_ok_iff (by decide)).1 ⟨_, taken⟩)
  · obtain ⟨viable, faulty⟩ := exists_append_eq_ok_iff (some Calculator.depthLimit)
      (by decide : ["1", "/", "0"] ≠ [])
    obtain ⟨fault, stays, -⟩ := faulty (by rw [viable]; simp [stopped])
    exact ⟨fault, stays⟩

end Expression

end Abacus
