import Abacus.Proofs.Expression.Derivation

/-!
# Zero divisors of derivations

A derivation whose chains, folded from the left, meet a zero divisor is read up to that divisor,
whatever its later leaves are and whatever follows it.

## Main statements

* `Expr.reads_zero`, `Sums.reads_zero`, `Term.reads_zero`, `Products.reads_zero`,
  `Factor.reads_zero` — a derivation that divides by zero is read so.
* `Expr.evaluate_yield_zero` — and so is a list of tokens that it yields.
-/

namespace Abacus.Expression

variable {α : Type} {A : Arithmetic α} {limit : Option Nat}

mutual

/-- A factor that divides by zero is read so, whatever follows it. The division is in a group, and
reading does not get out of it. -/
theorem Factor.reads_zero {d : Nat} (f : Factor) {rest : List (Lexeme α)}
    (zero : f.value A = .error .divisionByZero) (shallow : exceeds limit (d + f.depth) = false) :
    Reads A limit .factor d (lexemes A f.yield ++ rest) (.error .divisionByZero) := by
  match f with
  | .signed s f =>
      rw [Factor.depth, ← Nat.add_assoc] at shallow
      cases inner : f.value A with
      | ok x => simp [Factor.value, inner] at zero
      | error fault =>
          simp only [Factor.value, inner] at zero
          simp only [Factor.yield, lexemes_cons, Sign.ofToken_token, List.cons_append]
          exact .signFault (exceeds_of_le (Nat.le_add_right _ _) shallow)
            (Factor.reads_zero f (inner.trans zero) shallow)
  | .group e =>
      rw [Factor.depth, ← Nat.add_assoc] at shallow
      simp only [Factor.yield, lexemes_cons, lexemes_append, Lexeme.ofToken_opening,
        Lexeme.ofToken_closing, lexemes_nil, List.cons_append, List.append_assoc, List.nil_append]
      exact .groupFault (exceeds_of_le (Nat.le_add_right _ _) shallow)
        (Expr.reads_zero e zero shallow (by simp [EndsProducts, Arithmetic.product?]))
  | .numeral t => cases reading : A.numeral? t <;> simp [Factor.value, reading] at zero

/-- A chain of factors that divides by zero is read so. -/
theorem Products.reads_zero {d : Nat} (ps : Products) {x : α} {rest : List (Lexeme α)}
    (zero : ps.fold A x = .error .divisionByZero)
    (shallow : exceeds limit (d + ps.depth) = false) :
    Reads A limit (.products x) d (lexemes A ps.yield ++ rest) (.error .divisionByZero) := by
  match ps with
  | .nil => cases zero
  | .cons s f ps =>
      obtain ⟨fShallow, pShallow⟩ := exceeds_max_eq_false_iff.1 shallow
      simp only [Products.yield, lexemes_cons, lexemes_append, Scale.ofToken_token,
        List.cons_append, List.append_assoc]
      cases value : f.value A with
      | error fault =>
          simp only [Products.fold, value] at zero
          exact .productsFault (Factor.reads_zero f (value.trans zero) fShallow)
      | ok y =>
          cases combined : s.combine A x y with
          | error fault =>
              simp only [Products.fold, value, combined] at zero
              exact .productsZero (Factor.reads f value fShallow) (combined.trans zero)
          | ok z =>
              simp only [Products.fold, value, combined] at zero
              exact .products (Factor.reads f value fShallow) combined
                (Products.reads_zero ps zero pShallow)

/-- A term that divides by zero is read so. -/
theorem Term.reads_zero {d : Nat} (t : Term) {rest : List (Lexeme α)}
    (zero : t.value A = .error .divisionByZero) (shallow : exceeds limit (d + t.depth) = false) :
    Reads A limit .term d (lexemes A t.yield ++ rest) (.error .divisionByZero) := by
  match t with
  | .chain f ps =>
      obtain ⟨fShallow, pShallow⟩ := exceeds_max_eq_false_iff.1 shallow
      simp only [Term.yield, lexemes_append, List.append_assoc]
      cases first : f.value A with
      | error fault =>
          simp only [Term.value, first] at zero
          exact .termFault (Factor.reads_zero f (first.trans zero) fShallow)
      | ok x =>
          simp only [Term.value, first] at zero
          exact .term (Factor.reads f first fShallow) (Products.reads_zero ps zero pShallow)

/-- A chain of terms that divides by zero is read so. -/
theorem Sums.reads_zero {d : Nat} (ss : Sums) {x : α} {rest : List (Lexeme α)}
    (zero : ss.fold A x = .error .divisionByZero)
    (shallow : exceeds limit (d + ss.depth) = false) (ends : EndsProducts A rest) :
    Reads A limit (.sums x) d (lexemes A ss.yield ++ rest) (.error .divisionByZero) := by
  match ss with
  | .nil => cases zero
  | .cons s t ss =>
      obtain ⟨tShallow, sShallow⟩ := exceeds_max_eq_false_iff.1 shallow
      simp only [Sums.yield, lexemes_cons, lexemes_append, Sign.ofToken_token,
        List.cons_append, List.append_assoc]
      cases value : t.value A with
      | error fault =>
          simp only [Sums.fold, value] at zero
          exact .sumsFault (Term.reads_zero t (value.trans zero) tShallow)
      | ok y =>
          simp only [Sums.fold, value] at zero
          exact .sums (Term.reads t value tShallow (.productsEnd (endsProducts_yield_append ends)))
            (Sums.reads_zero ss zero sShallow ends)

/-- An expression that divides by zero is read so. -/
theorem Expr.reads_zero {d : Nat} (e : Expr) {rest : List (Lexeme α)}
    (zero : e.value A = .error .divisionByZero) (shallow : exceeds limit (d + e.depth) = false)
    (ends : EndsProducts A rest) :
    Reads A limit .expression d (lexemes A e.yield ++ rest) (.error .divisionByZero) := by
  match e with
  | .chain t ss =>
      obtain ⟨tShallow, sShallow⟩ := exceeds_max_eq_false_iff.1 shallow
      simp only [Expr.yield, lexemes_append, List.append_assoc]
      cases first : t.value A with
      | error fault =>
          simp only [Expr.value, first] at zero
          exact .expressionFault (Term.reads_zero t (first.trans zero) tShallow)
      | ok x =>
          simp only [Expr.value, first] at zero
          exact .expression
            (Term.reads t first tShallow (.productsEnd (endsProducts_yield_append ends)))
            (Sums.reads_zero ss zero sShallow ends)

end

/-- **An expression that divides by zero is evaluated so**, whatever its later leaves are. They need
not even be numerals, since nothing behind the zero divisor is read. -/
theorem Expr.evaluate_yield_zero (e : Expr) (zero : e.value A = .error .divisionByZero)
    (shallow : exceeds limit (0 + e.depth) = false) :
    evaluate A limit e.yield = .error .divisionByZero := by
  have reading : Reads A limit .expression 0 (lexemes A e.yield ++ []) (.error .divisionByZero) :=
    e.reads_zero zero shallow (by simp [EndsProducts])
  rw [List.append_nil] at reading
  rw [evaluate_eq_of_ne_nil e.yield_ne_nil, evaluateLexemes_eq, reading.read_eq]

end Abacus.Expression
