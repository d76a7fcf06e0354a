import Abacus.Calculator
import Abacus.Proofs.Expression.Reads

/-!
# Reading finds derivations

What a level reads is the yield of a derivation of that level, with the value and within the nesting
of the derivation; and the yield of every such derivation is read, whatever follows it. The two
directions make the evaluation of a list of tokens a statement about the grammar alone.

## Main definitions

* `Spells` — tokens are the yield of a derivation of a level, with its value.

## Main statements

* `Reads.exists_spells` — what is read is spelled.
* `Expr.reads`, `Sums.reads`, `Term.reads`, `Products.reads`, `Factor.reads` — what is spelled is
  read.
* `evaluate_eq_ok_iff_derivation` — the values of lists of tokens are those of their derivations,
  and there is one derivation at most.
-/

namespace Abacus.Expression

variable {α : Type} {A : Arithmetic α} {limit : Option Nat}

/-! ### Limits -/

theorem exceeds_zero (limit : Option Nat) : exceeds limit 0 = false := by
  cases limit <;> simp [exceeds]

/-- What is within a limit stays within it when it gets less. Depths are compared with the limit
through this only. -/
theorem exceeds_of_le {m n : Nat} (h : m ≤ n) (shallow : exceeds limit n = false) :
    exceeds limit m = false := by
  cases limit with
  | none => rfl
  | some most =>
      simp only [exceeds, decide_eq_false_iff_not, Nat.not_lt] at shallow ⊢
      exact Nat.le_trans h shallow

/-- The deeper of two parts decides. -/
theorem exceeds_max_eq_false_iff {d m n : Nat} :
    exceeds limit (d + max m n) = false ↔
      exceeds limit (d + m) = false ∧ exceeds limit (d + n) = false := by
  cases limit with
  | none => simp [exceeds]
  | some most =>
      simp only [exceeds, decide_eq_false_iff_not, Nat.not_lt]
      omega

/-! ### What is read is spelled -/

/-- The tokens are the yield of a derivation of the level that has the value and, at the depth,
stays within the limit. -/
def Spells (A : Arithmetic α) (limit : Option Nat) (d : Nat) :
    Level α → List String → α → Prop
  | .expression, used, v => ∃ e : Expr, e.yield = used ∧ e.Legible A ∧ e.value A = .ok v ∧
      exceeds limit (d + e.depth) = false
  | .sums x, used, v => ∃ ss : Sums, ss.yield = used ∧ ss.Legible A ∧ ss.fold A x = .ok v ∧
      exceeds limit (d + ss.depth) = false
  | .term, used, v => ∃ t : Term, t.yield = used ∧ t.Legible A ∧ t.value A = .ok v ∧
      exceeds limit (d + t.depth) = false
  | .products x, used, v => ∃ ps : Products, ps.yield = used ∧ ps.Legible A ∧
      ps.fold A x = .ok v ∧ exceeds limit (d + ps.depth) = false
  | .factor, used, v => ∃ f : Factor, f.yield = used ∧ f.Legible A ∧ f.value A = .ok v ∧
      exceeds limit (d + f.depth) = false

/-- The tokens behind lexemes that begin with a given one. -/
theorem eq_cons_of_lexemes_eq {l : Lexeme α} {input : List (Lexeme α)} {tokens : List String}
    (h : l :: input = lexemes A tokens) :
    ∃ after, tokens = l.token :: after ∧ input = lexemes A after ∧
      Lexeme.ofToken A l.token = l := by
  cases tokens with
  | nil => cases h
  | cons t after =>
      obtain ⟨head, rfl⟩ := List.cons.inj h
      have same : t = l.token := Lexeme.eq_token_of_ofToken_eq head.symm
      exact ⟨after, by rw [same], rfl, by rw [← same, head]⟩

/-- **What is read is spelled.** A level that reads a value takes the yield of a derivation from the
front of the tokens. -/
theorem Reads.exists_spells {level : Level α} {d : Nat} {input : List (Lexeme α)}
    {result : Except Fault (α × List (Lexeme α))} (h : Reads A limit level d input result)
    (shallow : exceeds limit d = false) {tokens : List String} (given : input = lexemes A tokens)
    {v : α} {rest : List (Lexeme α)} (found : result = .ok (v, rest)) :
    ∃ used after, tokens = used ++ after ∧ rest = lexemes A after ∧
      Spells A limit d level used v := by
  -- On the rules of reading. Those that end in a fault read no value; each other one gives a node
  -- of the derivation, and what its parts took is put together.
  induction h generalizing tokens v rest with
  | expressionFault | sumsFault | termFault | productsFault | productsZero | factorEnd | signDeep
  | signFault | groupDeep | groupFault | groupOpen | other => cases found
  | expression _ _ first next =>
      obtain ⟨used, middle, rfl, rfl, t, rfl, tLegible, tValue, tShallow⟩ :=
        first shallow given rfl
      obtain ⟨used, after, rfl, rfl, ss, rfl, sLegible, sValue, sShallow⟩ :=
        next shallow rfl found
      refine ⟨_, after, (List.append_assoc ..).symm, rfl, .chain t ss, rfl,
        ⟨tLegible, sLegible⟩, ?_, exceeds_max_eq_false_iff.2 ⟨tShallow, sShallow⟩⟩
      simp only [Expr.value, tValue, sValue]
  | sumsEnd =>
      cases found
      exact ⟨[], tokens, rfl, given, .nil, rfl, trivial, rfl, shallow⟩
  | @sums d x s input y rest result _ _ first next =>
      obtain ⟨operand, rfl, rest, -⟩ := eq_cons_of_lexemes_eq given
      obtain ⟨used, middle, rfl, rfl, t, rfl, tLegible, tValue, tShallow⟩ :=
        first shallow rest rfl
      obtain ⟨used, after, rfl, rfl, ss, rfl, sLegible, sValue, sShallow⟩ :=
        next shallow rfl found
      refine ⟨_, after, ?_, rfl, .cons s t ss, rfl, ⟨tLegible, sLegible⟩, ?_,
        exceeds_max_eq_false_iff.2 ⟨tShallow, sShallow⟩⟩
      · simp [Sums.yield]
      · simp only [Sums.fold, tValue, sValue]
  | term _ _ first next =>
      obtain ⟨used, middle, rfl, rfl, f, rfl, fLegible, fValue, fShallow⟩ :=
        first shallow given rfl
      obtain ⟨used, after, rfl, rfl, ps, rfl, pLegible, pValue, pShallow⟩ :=
        next shallow rfl found
      refine ⟨_, after, (List.append_assoc ..).symm, rfl, .chain f ps, rfl,
        ⟨fLegible, pLegible⟩, ?_, exceeds_max_eq_false_iff.2 ⟨fShallow, pShallow⟩⟩
      simp only [Term.value, fValue, pValue]
  | productsEnd =>
      cases found
      exact ⟨[], tokens, rfl, given, .nil, rfl, trivial, rfl, shallow⟩
  | @products d x s input y z rest result _ combined _ first next =>
      obtain ⟨operand, rfl, rest, -⟩ := eq_cons_of_lexemes_eq given
      obtain ⟨used, middle, rfl, rfl, f, rfl, fLegible, fValue, fShallow⟩ :=
        first shallow rest rfl
      obtain ⟨used, after, rfl, rfl, ps, rfl, pLegible, pValue, pShallow⟩ :=
        next shallow rfl found
      refine ⟨_, after, ?_, rfl, .cons s f ps, rfl, ⟨fLegible, pLegible⟩, ?_,
        exceeds_max_eq_false_iff.2 ⟨fShallow, pShallow⟩⟩
      · simp [Products.yield]
      · simp only [Products.fold, fValue, combined, pValue]
  | @sign d s input x rest within _ ih =>
      cases found
      obtain ⟨operand, rfl, rest, -⟩ := eq_cons_of_lexemes_eq given
      obtain ⟨used, after, rfl, rfl, f, rfl, fLegible, fValue, fShallow⟩ := ih within rest rfl
      refine ⟨_, after, ?_, rfl, .signed s f, rfl, fLegible, ?_, ?_⟩
      · simp [Factor.yield]
      · simp only [Factor.value, fValue]
      · rwa [Factor.depth, ← Nat.add_assoc]
  | @number d token x input =>
      cases found
      obtain ⟨after, rfl, rfl, meaning⟩ := eq_cons_of_lexemes_eq given
      have reading : A.numeral? token = some x := (Lexeme.ofToken_eq_number_iff.1 meaning).2
      refine ⟨[token], after, rfl, rfl, .numeral token, rfl, ?_, ?_, shallow⟩
      · simp [Factor.Legible, reading]
      · simp [Factor.value, reading]
  | group within _ ih =>
      cases found
      obtain ⟨inner, rfl, rest, -⟩ := eq_cons_of_lexemes_eq given
      obtain ⟨used, middle, rfl, closed, e, rfl, eLegible, eValue, eShallow⟩ :=
        ih within rest rfl
      obtain ⟨after, rfl, rfl, -⟩ := eq_cons_of_lexemes_eq closed
      refine ⟨_, after, ?_, rfl, .group e, rfl, eLegible, eValue, ?_⟩
      · simp [Factor.yield, Lexeme.token]
      · rwa [Factor.depth, ← Nat.add_assoc]

/-! ### What is spelled is read -/

theorem endsProducts_sign (s : Sign) (input : List (Lexeme α)) :
    EndsProducts A (s.lexeme :: input) := by
  simp [EndsProducts]

/-- What follows a chain of terms ends each term of the chain. -/
theorem endsProducts_yield_append {ss : Sums} {rest : List (Lexeme α)} (h : EndsProducts A rest) :
    EndsProducts A (lexemes A ss.yield ++ rest) := by
  cases ss with
  | nil => simpa [Sums.yield] using h
  | cons sign next after => simpa [Sums.yield] using endsProducts_sign sign _

mutual

/-- A factor is read, whatever follows it. It knows its own end, unlike chains. -/
theorem Factor.reads {d : Nat} (f : Factor) {v : α} {rest : List (Lexeme α)}
    (value : f.value A = .ok v) (shallow : exceeds limit (d + f.depth) = false) :
    Reads A limit .factor d (lexemes A f.yield ++ rest) (.ok (v, rest)) := by
  match f with
  | .signed s f =>
      rw [Factor.depth, ← Nat.add_assoc] at shallow
      cases inner : f.value A with
      | error fault => simp [Factor.value, inner] at value
      | ok x =>
          simp only [Factor.value, inner, Except.ok.injEq] at value
          simp only [Factor.yield, lexemes_cons, Sign.ofToken_token, List.cons_append, ← value]
          exact .sign (exceeds_of_le (Nat.le_add_right _ _) shallow) (Factor.reads f inner shallow)
  | .group e =>
      rw [Factor.depth, ← Nat.add_assoc] at shallow
      simp only [Factor.yield, lexemes_cons, lexemes_append, Lexeme.ofToken_opening,
        Lexeme.ofToken_closing, lexemes_nil, List.cons_append, List.append_assoc, List.nil_append]
      have closed : Reads A limit (.sums v) (d + groupDepth) (.closing :: rest)
          (.ok (v, .closing :: rest)) := .sumsEnd (by simp [EndsSums, Arithmetic.sum?])
      exact .group (exceeds_of_le (Nat.le_add_right _ _) shallow)
        (Expr.reads e value shallow (by simp [EndsProducts, Arithmetic.product?]) closed)
  | .numeral t =>
      cases reading : A.numeral? t with
      | none => simp [Factor.value, reading] at value
      | some x =>
          simp only [Factor.value, reading, Except.ok.injEq] at value
          simp only [Factor.yield, lexemes_cons, Lexeme.ofToken_of_numeral? reading, lexemes_nil,
            List.cons_append, List.nil_append, ← value]
          exact .number

/-- A chain of factors is read up to what follows it. What is read from there on is a parameter, so
that chains can be put one after the other. -/
theorem Products.reads {d : Nat} (ps : Products) {x v : α} {rest : List (Lexeme α)}
    {result : Except Fault (α × List (Lexeme α))} (fold : ps.fold A x = .ok v)
    (shallow : exceeds limit (d + ps.depth) = false)
    (next : Reads A limit (.products v) d rest result) :
    Reads A limit (.products x) d (lexemes A ps.yield ++ rest) result := by
  match ps with
  | .nil =>
      cases fold
      exact next
  | .cons s f ps =>
      obtain ⟨fShallow, pShallow⟩ := exceeds_max_eq_false_iff.1 shallow
      cases value : f.value A with
      | error fault => simp [Products.fold, value] at fold
      | ok y =>
          cases combined : s.combine A x y with
          | error fault => simp [Products.fold, value, combined] at fold
          | ok z =>
              simp only [Products.fold, value, combined] at fold
              simp only [Products.yield, lexemes_cons, lexemes_append, Scale.ofToken_token,
                List.cons_append, List.append_assoc]
              exact .products (Factor.reads f value fShallow) combined
                (Products.reads ps fold pShallow next)

/-- A term is read up to what follows it. -/
theorem Term.reads {d : Nat} (t : Term) {v : α} {rest : List (Lexeme α)}
    {result : Except Fault (α × List (Lexeme α))} (value : t.value A = .ok v)
    (shallow : exceeds limit (d + t.depth) = false)
    (next : Reads A limit (.products v) d rest result) :
    Reads A limit .term d (lexemes A t.yield ++ rest) result := by
  match t with
  | .chain f ps =>
      obtain ⟨fShallow, pShallow⟩ := exceeds_max_eq_false_iff.1 shallow
      cases first : f.value A with
      | error fault => simp [Term.value, first] at value
      | ok x =>
          simp only [Term.value, first] at value
          simp only [Term.yield, lexemes_append, List.append_assoc]
          exact .term (Factor.reads f first fShallow) (Products.reads ps value pShallow next)

/-- A chain of terms is read up to what follows it. No operator between factors may follow, or it
would belong to the last term. -/
theorem Sums.reads {d : Nat} (ss : Sums) {x v : α} {rest : List (Lexeme α)}
    {result : Except Fault (α × List (Lexeme α))} (fold : ss.fold A x = .ok v)
    (shallow : exceeds limit (d + ss.depth) = false) (ends : EndsProducts A rest)
    (next : Reads A limit (.sums v) d rest result) :
    Reads A limit (.sums x) d (lexemes A ss.yield ++ rest) result := by
  match ss with
  | .nil =>
      cases fold
      exact next
  | .cons s t ss =>
      obtain ⟨tShallow, sShallow⟩ := exceeds_max_eq_false_iff.1 shallow
      cases value : t.value A with
      | error fault => simp [Sums.fold, value] at fold
      | ok y =>
          simp only [Sums.fold, value] at fold
          simp only [Sums.yield, lexemes_cons, lexemes_append, Sign.ofToken_token,
            List.cons_append, List.append_assoc]
          exact .sums (Term.reads t value tShallow (.productsEnd (endsProducts_yield_append ends)))
            (Sums.reads ss fold sShallow ends next)

/-- An expression is read up to what follows it. -/
theorem Expr.reads {d : Nat} (e : Expr) {v : α} {rest : List (Lexeme α)}
    {result : Except Fault (α × List (Lexeme α))} (value : e.value A = .ok v)
    (shallow : exceeds limit (d + e.depth) = false) (ends : EndsProducts A rest)
    (next : Reads A limit (.sums v) d rest result) :
    Reads A limit .expression d (lexemes A e.yield ++ rest) result := by
  match e with
  | .chain t ss =>
      obtain ⟨tShallow, sShallow⟩ := exceeds_max_eq_false_iff.1 shallow
      cases first : t.value A with
      | error fault => simp [Expr.value, first] at value
      | ok x =>
          simp only [Expr.value, first] at value
          simp only [Expr.yield, lexemes_append, List.append_assoc]
          exact .expression
            (Term.reads t first tShallow (.productsEnd (endsProducts_yield_append ends)))
            (Sums.reads ss value sShallow ends next)

end

/-! ### Values of lists of tokens -/

theorem Factor.yield_ne_nil (f : Factor) : f.yield ≠ [] := by
  cases f <;> simp [Factor.yield]

theorem Expr.yield_ne_nil (e : Expr) : e.yield ≠ [] := by
  obtain ⟨⟨f, ps⟩, ss⟩ := e
  simp [Expr.yield, Term.yield, f.yield_ne_nil]

/-- The yield of an expression within the limit evaluates to the value of the expression. Nothing
follows it, so every chain ends where the tree says. -/
theorem Expr.evaluate_yield (e : Expr) {v : α} (value : e.value A = .ok v)
    (shallow : exceeds limit (0 + e.depth) = false) : evaluate A limit e.yield = .ok v := by
  have reading : Reads A limit .expression 0 (lexemes A e.yield ++ []) (.ok (v, [])) :=
    e.reads value shallow (by simp [EndsProducts]) (.sumsEnd (by simp [EndsSums]))
  rw [List.append_nil] at reading
  rw [evaluate_eq_of_ne_nil e.yield_ne_nil, evaluateLexemes_eq, reading.read_eq]

/-- A list of tokens has a value if and only if it is the yield of an expression within the limit
that has the value. -/
theorem evaluate_eq_ok_iff {tokens : List String} {v : α} :
    evaluate A limit tokens = .ok v ↔ Spells A limit 0 .expression tokens v := by
  constructor
  · intro evaluated
    have nonempty : tokens ≠ [] := by
      rintro rfl
      simp [evaluate] at evaluated
    rw [evaluate_eq_of_ne_nil nonempty, evaluateLexemes_eq] at evaluated
    rcases found : read A limit .expression 0 (lexemes A tokens) with fault | ⟨x, _ | ⟨l, rest⟩⟩
    · simp [found] at evaluated
    · simp only [found, Except.ok.injEq] at evaluated
      obtain ⟨used, after, rfl, nothing, spelled⟩ :=
        (reads_iff.2 found).exists_spells (exceeds_zero limit) rfl rfl
      have done : after = [] := List.map_eq_nil_iff.1 nothing.symm
      rwa [done, List.append_nil, ← evaluated]
    · simp [found] at evaluated
  · rintro ⟨e, rfl, -, value, shallow⟩
    exact e.evaluate_yield value shallow

/-- **Evaluation computes the values of derivations.** Whatever the arithmetic and the limit, a list
of tokens evaluates to a value if and only if the whole list is the yield of an expression whose
leaves are numerals, whose nesting stays within the limit, and whose chains, folded from the left
without a zero divisor, have that value. No other expression yields the list. The calculator is the
case of `Calculator.arithmetic` and `Calculator.depthLimit`. -/
theorem evaluate_eq_ok_iff_derivation (A : Arithmetic α) (limit : Option Nat)
    (tokens : List String) (v : α) :
    (evaluate A limit tokens = .ok v ↔
      ∃ e : Expr, e.yield = tokens ∧ e.Legible A ∧ exceeds limit e.depth = false ∧
        e.value A = .ok v) ∧
    ∀ e e' : Expr, e.Legible A → e'.Legible A → e.yield = tokens → e'.yield = tokens →
      e = e' := by
  refine ⟨evaluate_eq_ok_iff.trans ⟨?_, ?_⟩, ?_⟩
  · rintro ⟨e, spelled, legible, value, shallow⟩
    exact ⟨e, spelled, legible, by simpa using shallow, value⟩
  · rintro ⟨e, spelled, legible, shallow, value⟩
    exact ⟨e, spelled, legible, value, by simpa using shallow⟩
  · intro e e' legible legible' spelled spelled'
    exact Expr.eq_of_yield_eq legible legible' (spelled.trans spelled'.symm)

/-- A sign applies to the group after it. -/
theorem evaluate_negated_group : ∃ x, Calculator.arithmetic.numeral? "1" = some x ∧
    evaluate Calculator.arithmetic (some Calculator.depthLimit) ["-", "(", "1", ")"] =
      .ok (Binary64.neg x) := by
  obtain ⟨x, reads⟩ : ∃ x, Calculator.arithmetic.numeral? "1" = some x :=
    Option.isSome_iff_exists.1 (by decide +kernel)
  refine ⟨x, reads, (evaluate_eq_ok_iff_derivation Calculator.arithmetic _ _ _).1.2 ?_⟩
  refine ⟨.chain (.chain (.signed .minus (.group (.chain (.chain (.numeral "1") .nil) .nil))) .nil)
    .nil, rfl, ?_, rfl, ?_⟩
  · simp [Expr.Legible, Term.Legible, Factor.Legible, Products.Legible, Sums.Legible, reads]
  · simp [Expr.value, Term.value, Factor.value, Products.fold, Sums.fold, reads]
    rfl

end Abacus.Expression
