import Abacus.Proofs.Expression.Limit

/-!
# Groups in their surroundings

A group counts for its value. Whatever stands before it and behind it, well-formed or not, the
outcome of an evaluation depends on the tokens between the parentheses only through the value that
they have on their own.

The reason is local. What stands before the group leaves the machine in a state, or fails before it
gets there. In a state that waits for an operand the group does what its value does, and in all
others the parenthesis that opens it is out of place, whatever is in it. This holds without a limit
on the nesting; a limit that is not noticed does not change it.

## Main statements

* `drive_group` — where an operand comes next, a group is an operand.
* `drive_group_congr` — in every state, groups of the same value lead to the same outcome.
* `evaluate_group_congr` — groups of the same value are exchanged in any list of tokens.
-/

namespace Abacus.Expression

variable {α : Type} {A : Arithmetic α} {limit : Option Nat} {xs ys : List String} {v : α}

/-- The lexemes of a group and what follows it. The tokens inside need not be an expression; what
becomes of the group is what they evaluate to. -/
def groupLexemes (A : Arithmetic α) (tokens : List String) (rest : List (Lexeme α)) :
    List (Lexeme α) :=
  .opening :: (lexemes A tokens ++ .closing :: rest)

theorem lexemes_surrounded (before tokens after : List String) :
    lexemes A (before ++ ["("] ++ tokens ++ [")"] ++ after) =
      lexemes A before ++ groupLexemes A tokens (lexemes A after) := by
  simp [groupLexemes, lexemes_append, lexemes_cons]

/-! ### Groups in a state of the machine -/

/-- **Where an operand comes next, a group is an operand:** the machine goes on from the value of
the tokens in it. -/
theorem drive_group (h : evaluate A none xs = .ok v) (frame : Frame α) (outer : List (Frame α))
    (rest : List (Lexeme α)) :
    drive A none (.operand frame outer) (groupLexemes A xs rest) =
      (frame.complete A outer v).bind fun q => drive A none q rest := by
  obtain ⟨e, rfl, -, value, -⟩ := evaluate_eq_ok_iff.1 h
  have reading : Reads A none .factor (State.operand frame outer).depth
      (lexemes A (Factor.group e).yield ++ rest) (.ok (v, rest)) :=
    (Factor.group e).reads value rfl
  have spelled : lexemes A (Factor.group e).yield ++ rest = groupLexemes A e.yield rest := by
    simp [groupLexemes, Factor.yield, lexemes_append, lexemes_cons]
  rw [← spelled]
  exact reading.drives frame outer rfl

/-- After an operand, a group is out of place, whatever is in it. Its opening parenthesis is the
fault, or the lack of a closing one before it. -/
theorem drive_group_of_operator (sum : Option (α × Sign)) (x : α) (outer : List (Frame α))
    (rest : List (Lexeme α)) :
    drive A limit (.operator sum x outer) (groupLexemes A xs rest) =
      .error (if outer.isEmpty then .unexpectedToken "(" else .missingClosingParen) := by
  cases outer <;> rfl

/-- **In every state, groups of the same value lead to the same outcome.** What is inside a group
does not see what is around it, but for the limit; so there is none here. -/
theorem drive_group_congr (hx : evaluate A none xs = .ok v) (hy : evaluate A none ys = .ok v)
    (q : State α) (rest : List (Lexeme α)) :
    drive A none q (groupLexemes A xs rest) = drive A none q (groupLexemes A ys rest) := by
  cases q with
  | operand frame outer => rw [drive_group hx, drive_group hy]
  | operator sum x outer => rw [drive_group_of_operator, drive_group_of_operator]

/-! ### Groups in a list of tokens -/

/-- Evaluation goes on behind what stands before a group. Where what stands before fails, the group
does not matter. -/
theorem evaluate_surrounded (before tokens after : List String) :
    evaluate A limit (before ++ ["("] ++ tokens ++ [")"] ++ after) =
      (run A limit .start (lexemes A before)).bind fun q =>
        drive A limit q (groupLexemes A tokens (lexemes A after)) := by
  rw [evaluate_eq_drive (by simp), lexemes_surrounded, drive, run_append]
  cases run A limit .start (lexemes A before) <;> rfl

/-- An evaluation that does not notice its limit, if it has one, goes as if there was none. So
groups can be compared without any. -/
theorem evaluate_eq_unlimited {tokens : List String}
    (h : evaluate A limit tokens ≠ .error .tooDeep) :
    evaluate A limit tokens = evaluate A none tokens := by
  cases limit with
  | none => rfl
  | some most => exact evaluate_eq_none h

/-- A value within a limit is the value without one. -/
theorem evaluate_none_of_eq_ok {tokens : List String} (h : evaluate A limit tokens = .ok v) :
    evaluate A none tokens = .ok v := by
  have shallow : evaluate A limit tokens ≠ .error .tooDeep := by simp [h]
  rw [← evaluate_eq_unlimited shallow, h]

/-- **Groups of the same value are exchanged in any list of tokens.** Where two lists of tokens have
the same value, they may stand for each other between parentheses: the outcome is the same, be it a
value or a fault with its token, whatever comes before the group and behind it, as long as neither
evaluation stops at the limit on the nesting. -/
theorem evaluate_group_congr (A : Arithmetic α) (limit : Option Nat) (xs ys : List String) (v : α)
    (hx : evaluate A limit xs = .ok v) (hy : evaluate A limit ys = .ok v)
    (before after : List String)
    (shallowX : evaluate A limit (before ++ ["("] ++ xs ++ [")"] ++ after) ≠ .error .tooDeep)
    (shallowY : evaluate A limit (before ++ ["("] ++ ys ++ [")"] ++ after) ≠ .error .tooDeep) :
    evaluate A limit (before ++ ["("] ++ xs ++ [")"] ++ after) =
      evaluate A limit (before ++ ["("] ++ ys ++ [")"] ++ after) := by
  calc evaluate A limit (before ++ ["("] ++ xs ++ [")"] ++ after)
    _ = evaluate A none (before ++ ["("] ++ xs ++ [")"] ++ after) := evaluate_eq_unlimited shallowX
    _ = (run A none .start (lexemes A before)).bind fun q =>
          drive A none q (groupLexemes A xs (lexemes A after)) := evaluate_surrounded ..
    _ = (run A none .start (lexemes A before)).bind fun q =>
          drive A none q (groupLexemes A ys (lexemes A after)) := by
        congr 1
        funext q
        exact drive_group_congr (evaluate_none_of_eq_ok hx) (evaluate_none_of_eq_ok hy) q _
    _ = evaluate A none (before ++ ["("] ++ ys ++ [")"] ++ after) := (evaluate_surrounded ..).symm
    _ = evaluate A limit (before ++ ["("] ++ ys ++ [")"] ++ after) :=
        (evaluate_eq_unlimited shallowY).symm

/-- A quotient that is two divides as a two does, also before a token that is out of place. -/
theorem evaluate_quotient_as_divisor :
    evaluate Calculator.arithmetic (some Calculator.depthLimit)
        (["1", "/"] ++ ["("] ++ ["4", "/", "2"] ++ [")"] ++ ["1"]) =
      evaluate Calculator.arithmetic (some Calculator.depthLimit)
        (["1", "/"] ++ ["("] ++ ["2"] ++ [")"] ++ ["1"]) := by
  obtain ⟨two, readsTwo, quotient⟩ : ∃ x, Calculator.arithmetic.numeral? "2" = some x ∧
      drive Calculator.arithmetic (some Calculator.depthLimit) .start
        (lexemes Calculator.arithmetic ["4", "/", "2"]) = .ok x := by
    have read : (Calculator.arithmetic.numeral? "2").any (fun x =>
        drive Calculator.arithmetic (some Calculator.depthLimit) .start
          (lexemes Calculator.arithmetic ["4", "/", "2"]) = .ok x) = true := by decide +kernel
    simpa only [Option.any_eq_true, decide_eq_true_eq] using read
  refine evaluate_group_congr _ _ ["4", "/", "2"] ["2"] two ?_ ?_ ["1", "/"] ["1"] ?_ ?_
  · rw [evaluate_eq_drive (by decide), quotient]
  · rw [evaluate_eq_drive (by decide), lexemes_cons, Lexeme.ofToken_of_numeral? readsTwo]
    rfl
  · rw [evaluate_eq_drive (by decide)]
    decide +kernel
  · rw [evaluate_eq_drive (by decide)]
    decide +kernel

end Abacus.Expression
