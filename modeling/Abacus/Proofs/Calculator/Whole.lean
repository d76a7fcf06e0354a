import Abacus.Proofs.Binary64.Exact
import Abacus.Proofs.Expression.ZeroDivisor
import Abacus.Proofs.Numeral.Value

/-!
# Calculations in integers

Binary64 arithmetic is integer arithmetic as long as no number exceeds `2 ^ 53` and all divisions
come out even. So an expression of integers has its exact value, and a divisor is found to be zero
where its exact value is zero.

The integers are an arithmetic of their own, in which derivations have values as in any other. A
result that is no integer, or is too large, is lost, and so is all that is computed from it.

## Main definitions

* `Numeral.whole?` — the integer that a plain numeral denotes.
* `Calculator.wholeArithmetic` — exact arithmetic on integers up to `2 ^ 53`.
* `Calculator.Agrees` — a value in this arithmetic and in binary64 arithmetic.

## Main statements

* `Calculator.agrees_expr`, `agrees_sums`, `agrees_term`, `agrees_products`, `agrees_factor` — the
  values of a derivation agree.
* `Calculator.evaluate_exact` — what is exact in integers is evaluated to that integer, and what
  divides by zero in integers is evaluated to that fault.
-/

namespace Abacus

open Expression

/-! ### Values, one operation after the other -/

namespace Expression

variable {α : Type} (A : Arithmetic α)

theorem Expr.value_chain (t : Term) (ss : Sums) :
    (Expr.chain t ss).value A = (t.value A).bind (ss.fold A) := by
  rw [Expr.value]
  cases t.value A <;> rfl

theorem Sums.fold_cons (s : Sign) (t : Term) (ss : Sums) (x : α) :
    (Sums.cons s t ss).fold A x = (t.value A).bind fun y => ss.fold A (s.combine A x y) := by
  rw [Sums.fold]
  cases t.value A <;> rfl

theorem Term.value_chain (f : Factor) (ps : Products) :
    (Term.chain f ps).value A = (f.value A).bind (ps.fold A) := by
  rw [Term.value]
  cases f.value A <;> rfl

theorem Products.fold_cons (s : Scale) (f : Factor) (ps : Products) (x : α) :
    (Products.cons s f ps).fold A x =
      (f.value A).bind fun y => (s.combine A x y).bind (ps.fold A) := by
  rw [Products.fold]
  cases f.value A with
  | error fault => rfl
  | ok y =>
      dsimp only [Except.bind]
      cases s.combine A x y <;> rfl

theorem Factor.value_signed (s : Sign) (f : Factor) :
    (Factor.signed s f).value A = (f.value A).bind fun x => .ok (s.apply A x) := by
  rw [Factor.value]
  cases f.value A <;> rfl

end Expression

/-! ### Integers -/

/-- The integer that a plain numeral denotes. The point does not matter, nor do zeros behind it. -/
def Numeral.whole? (token : String) : Option Int :=
  (plain? token.toList).bind fun d => if d.toRat.isInt then some d.toRat.num else none

theorem Numeral.whole?_eq_some_iff {t : String} {n : Int} :
    whole? t = some n ↔ Denotes n t.toList := by
  rw [← exists_plain?_iff, whole?, Option.bind_eq_some_iff]
  apply exists_congr
  intro d
  rw [and_congr_right_iff]
  intro _
  rw [Option.ite_none_right_eq_some, Option.some_inj]
  constructor
  · rintro ⟨whole, rfl⟩
    exact (Rat.coe_int_num_of_den_eq_one (by simpa [Rat.isInt] using whole)).symm
  · intro value
    rw [value]
    exact ⟨by simp [Rat.isInt], Rat.num_intCast n⟩

/-- A plain numeral of a rational that is a number is read as that number. -/
theorem Numeral.exists_value?_of_rat? {t : String} {r : ℚ} {z : Binary64}
    (h : Denotes r t.toList) (hz : z.rat? = some r) :
    ∃ x, value? t = some x ∧ x.rat? = some r := by
  have nonneg := h.nonneg
  obtain ⟨negative, n, onGrid, rfl, same⟩ := Binary64.exists_of_rat?_eq_some hz
  have value : r = Binary64.toRat n := by
    cases negative with
    | false => exact same
    | true =>
        have minus : r = -Binary64.toRat n := same.trans (Binary64.ofQuanta_neg n).symm
        have magnitude := Binary64.toRat_nonneg n
        linarith
  have quanta : Binary64.nearestQuanta r = n := by
    rw [value, Binary64.nearestQuanta_toRat onGrid.2]
  refine ⟨.finite false n onGrid, (value?_of_denotes h).2 ?_, congrArg some value.symm⟩
  subst quanta
  exact ⟨onGrid, rfl⟩

namespace Calculator

/-- An integer, unless its magnitude exceeds `2 ^ 53`. Up to there every integer is a number of its
own; beyond, it is given up. -/
def bounded (n : Int) : Option Int := if n.natAbs ≤ 2 ^ 53 then some n else none

/-- Exact arithmetic on the integers up to `2 ^ 53`. All other results are lost: a sum or product
that is larger, and the quotient of a division that leaves a remainder. A numeral that is no such
integer is not read. -/
def wholeArithmetic : Arithmetic (Option Int) where
  read? token := ((Numeral.whole? token).bind bounded).map some
  neg x := x.map fun m => -m
  add x y := x.bind fun m => y.bind fun n => bounded (m + n)
  sub x y := x.bind fun m => y.bind fun n => bounded (m - n)
  mul x y := x.bind fun m => y.bind fun n => bounded (m * n)
  div x y := x.bind fun m => y.bind fun n => if n ∣ m then bounded (m / n) else none
  isZero y := y == some 0

/-! ### Agreement of values -/

/-- The number is equal to the integer, unless the integer is lost. This is what an induction over
expressions carries from operands to results. Nothing is said of a number whose integer is lost. -/
def IsExact (x : Option Int) (y : Binary64) : Prop := ∀ n ∈ x, y.rat? = some (n : ℚ)

/-- What a part of an expression comes to in integers, and in binary64 numbers. A number that stands
for a lost integer may be zero, so it may stop the evaluation as a divisor. -/
inductive Agrees : Except Fault (Option Int) → Except Fault Binary64 → Prop
  | value {x : Option Int} {y : Binary64} : IsExact x y → Agrees (.ok x) (.ok y)
  | lost : Agrees (.ok none) (.error .divisionByZero)
  | zero : Agrees (.error .divisionByZero) (.error .divisionByZero)
  | other {fault : Fault} {s : Except Fault Binary64} :
      fault ≠ .divisionByZero → Agrees (.error fault) s

variable {x x' : Option Int} {y y' : Binary64} {r : Except Fault (Option Int)}
  {s : Except Fault Binary64}

/-- **Agreement goes from a part to the whole**, if what is computed from the part agrees, and if
nothing comes of a lost integer. -/
theorem Agrees.bind {f : Option Int → Except Fault (Option Int)}
    {g : Binary64 → Except Fault Binary64} (h : Agrees r s)
    (next : ∀ x y, IsExact x y → Agrees (f x) (g y))
    (nothing : Agrees (f none) (.error .divisionByZero)) : Agrees (r.bind f) (s.bind g) := by
  cases h with
  | value equal => exact next _ _ equal
  | lost => exact nothing
  | zero => exact .zero
  | other apart => exact .other apart

/-- Where the evaluation has been stopped already, nothing more comes of any integer. -/
theorem Agrees.bind_stopped {f : Option Int → Except Fault (Option Int)}
    (next : ∀ x, Agrees (f x) (.error .divisionByZero)) :
    Agrees (r.bind f) (.error .divisionByZero) := by
  cases r with
  | ok x => exact next x
  | error fault =>
      by_cases same : fault = .divisionByZero
      · exact same ▸ .zero
      · exact .other same

/-! ### Operations -/

/-- A lost integer equals any number. -/
theorem isExact_none (y : Binary64) : IsExact none y := fun _ h => by cases h

/-- The result of an operation is exact if it is so for all integers that are not lost. -/
theorem isExact_bind {op : Int → Int → Option Int} {z : Binary64}
    (h : ∀ m ∈ x, ∀ n ∈ x', IsExact (op m n) z) :
    IsExact (x.bind fun m => x'.bind fun n => op m n) z := by
  intro k member
  obtain ⟨m, hm, member⟩ := Option.bind_eq_some_iff.1 member
  obtain ⟨n, hn, member⟩ := Option.bind_eq_some_iff.1 member
  exact h m hm n hn k member

/-- A number is exact if it is so wherever its exact value is a number. -/
theorem isExact_bounded {n : Int}
    (h : ∀ z : Binary64, z.rat? = some (n : ℚ) → y.rat? = some (n : ℚ)) :
    IsExact (bounded n) y := by
  intro k member
  obtain ⟨small, same⟩ := Option.ite_none_right_eq_some.1 member
  obtain rfl := Option.some_inj.1 same
  obtain ⟨z, hz⟩ := Binary64.exists_rat?_eq_intCast small
  exact h z hz

/-- An operation is exact if it is so wherever its exact result is a number. -/
theorem isExact_bind_bounded {op : Int → Int → Int} {z : Binary64} (h : IsExact x y)
    (h' : IsExact x' y')
    (single : ∀ (m n : Int) (w : Binary64), y.rat? = some (m : ℚ) → y'.rat? = some (n : ℚ) →
      w.rat? = some (op m n : ℚ) → z.rat? = some (op m n : ℚ)) :
    IsExact (x.bind fun m => x'.bind fun n => bounded (op m n)) z := by
  apply isExact_bind
  intro m hm n hn
  apply isExact_bounded
  intro w hw
  exact single m n w (h m hm) (h' n hn) hw

theorem isExact_neg (h : IsExact x y) : IsExact (wholeArithmetic.neg x) (arithmetic.neg y) := by
  intro k member
  obtain ⟨m, hm, rfl⟩ := Option.map_eq_some_iff.1 member
  rw [Int.cast_neg]
  exact Binary64.rat?_neg (h m hm)

theorem isExact_add (h : IsExact x y) (h' : IsExact x' y') :
    IsExact (wholeArithmetic.add x x') (arithmetic.add y y') := by
  apply isExact_bind_bounded h h'
  intro m n w hm hn hw
  rw [Int.cast_add] at hw ⊢
  exact Binary64.rat?_add hm hn hw

theorem isExact_sub (h : IsExact x y) (h' : IsExact x' y') :
    IsExact (wholeArithmetic.sub x x') (arithmetic.sub y y') := by
  apply isExact_bind_bounded h h'
  intro m n w hm hn hw
  rw [Int.cast_sub] at hw ⊢
  exact Binary64.rat?_sub hm hn hw

theorem isExact_mul (h : IsExact x y) (h' : IsExact x' y') :
    IsExact (wholeArithmetic.mul x x') (arithmetic.mul y y') := by
  apply isExact_bind_bounded h h'
  intro m n w hm hn hw
  rw [Int.cast_mul] at hw ⊢
  exact Binary64.rat?_mul hm hn hw

theorem isExact_div (h : IsExact x y) (h' : IsExact x' y') (nonzero : x' ≠ some 0) :
    IsExact (wholeArithmetic.div x x') (arithmetic.div y y') := by
  apply isExact_bind
  intro m hm n hn
  split
  · next even =>
      have divisor : (n : ℚ) ≠ 0 := by
        rw [Int.cast_ne_zero]
        rintro rfl
        exact nonzero hn
      apply isExact_bounded
      intro z hz
      rw [Int.cast_div even divisor] at hz ⊢
      exact Binary64.rat?_div (h m hm) (h' n hn) divisor hz
  · exact isExact_none _

/-- A divisor is zero where its exact value is zero. -/
theorem isZero_iff_of_isExact {n : Int} (h : IsExact (some n) y) :
    arithmetic.isZero y = true ↔ n = 0 := by
  show y.isZero = true ↔ n = 0
  rw [Binary64.isZero_eq_of_rat? (h n rfl), decide_eq_true_iff, Int.cast_eq_zero]

/-- A numeral of an integer is read as that integer. -/
theorem isExact_numeral {t : String} (h : wholeArithmetic.numeral? t = some x) :
    ∃ y, arithmetic.numeral? t = some y ∧ IsExact x y := by
  rw [Arithmetic.numeral?, Option.ite_none_left_eq_some] at h
  obtain ⟨noSymbol, h⟩ := h
  obtain ⟨n, read, rfl⟩ := Option.map_eq_some_iff.1 h
  obtain ⟨m, whole, bound⟩ := Option.bind_eq_some_iff.1 read
  obtain ⟨small, same⟩ := Option.ite_none_right_eq_some.1 bound
  obtain rfl := Option.some_inj.1 same
  obtain ⟨z, hz⟩ := Binary64.exists_rat?_eq_intCast small
  obtain ⟨y, value, equal⟩ := Numeral.exists_value?_of_rat? (Numeral.whole?_eq_some_iff.1 whole) hz
  refine ⟨y, ?_, ?_⟩
  · rw [Arithmetic.numeral?, if_neg noSymbol]
    exact value
  · intro k member
    obtain rfl := Option.some_inj.1 member
    exact equal

/-! ### Agreement on derivations -/

/-- One more factor keeps agreement. A divisor that stands for a lost integer may stop the
evaluation or not. -/
theorem agrees_combine (scale : Scale) (h : IsExact x y) (h' : IsExact x' y') :
    Agrees (scale.combine wholeArithmetic x x') (scale.combine arithmetic y y') := by
  cases scale with
  | times => exact .value (isExact_mul h h')
  | divide =>
      rw [Scale.combine, Scale.combine]
      cases x' with
      | none =>
          have nothing : wholeArithmetic.div x none = none := by cases x <;> rfl
          rw [if_neg (by decide), nothing]
          split
          · exact .lost
          · exact .value (isExact_none _)
      | some n =>
          have zero : wholeArithmetic.isZero (some n) = true ↔ n = 0 := by
            show (some n == some 0) = true ↔ n = 0
            rw [beq_iff_eq, Option.some_inj]
          by_cases none : n = 0
          · rw [if_pos (zero.2 none), if_pos ((isZero_iff_of_isExact h').2 none)]
            exact .zero
          · rw [if_neg (mt zero.1 none), if_neg (mt (isZero_iff_of_isExact h').1 none)]
            exact .value (isExact_div h h' (mt Option.some_inj.1 none))

/-- One more term keeps exactness. -/
theorem isExact_combine (sign : Sign) (h : IsExact x y) (h' : IsExact x' y') :
    IsExact (sign.combine wholeArithmetic x x') (sign.combine arithmetic y y') := by
  cases sign with
  | plus => exact isExact_add h h'
  | minus => exact isExact_sub h h'

theorem isExact_apply (sign : Sign) (h : IsExact x y) :
    IsExact (sign.apply wholeArithmetic x) (sign.apply arithmetic y) := by
  cases sign with
  | plus => exact h
  | minus => exact isExact_neg h

/-- Nothing comes of a lost integer in a chain of terms. -/
theorem agrees_sums_none (ss : Sums) :
    Agrees (ss.fold wholeArithmetic none) (.error .divisionByZero) := by
  match ss with
  | .nil => exact .lost
  | .cons sign t ss =>
      rw [Sums.fold_cons]
      apply Agrees.bind_stopped
      intro x
      have nothing : sign.combine wholeArithmetic none x = none := by cases sign <;> rfl
      rw [nothing]
      exact agrees_sums_none ss

/-- Nothing comes of a lost integer in a chain of factors. -/
theorem agrees_products_none (ps : Products) :
    Agrees (ps.fold wholeArithmetic none) (.error .divisionByZero) := by
  match ps with
  | .nil => exact .lost
  | .cons scale f ps =>
      rw [Products.fold_cons]
      apply Agrees.bind_stopped
      intro x
      cases scale with
      | times => exact agrees_products_none ps
      | divide =>
          rw [Scale.combine]
          split
          · exact .zero
          · exact agrees_products_none ps

mutual

/-- The values of a factor agree. -/
theorem agrees_factor (f : Factor) : Agrees (f.value wholeArithmetic) (f.value arithmetic) := by
  match f with
  | .signed sign f =>
      rw [Factor.value_signed, Factor.value_signed]
      exact (agrees_factor f).bind (fun x y h => .value (isExact_apply sign h))
        (by cases sign <;> exact .lost)
  | .group e => exact agrees_expr e
  | .numeral t =>
      rw [Factor.value, Factor.value]
      cases read : wholeArithmetic.numeral? t with
      | none => exact .other (by simp)
      | some x =>
          obtain ⟨y, same, equal⟩ := isExact_numeral read
          rw [same]
          exact .value equal

/-- A chain of factors goes on with agreement. -/
theorem agrees_products (ps : Products) {x : Option Int} {y : Binary64} (h : IsExact x y) :
    Agrees (ps.fold wholeArithmetic x) (ps.fold arithmetic y) := by
  match ps with
  | .nil => exact .value h
  | .cons scale f ps =>
      rw [Products.fold_cons, Products.fold_cons]
      apply (agrees_factor f).bind
      · intro x' y' h'
        apply (agrees_combine scale h h').bind
        · intro x y h
          exact agrees_products ps h
        · exact agrees_products_none ps
      · have nothing : scale.combine wholeArithmetic x none = .ok none := by
          cases scale <;> cases x <;> rfl
        rw [nothing]
        exact agrees_products_none ps

/-- The values of a term agree. -/
theorem agrees_term (t : Term) : Agrees (t.value wholeArithmetic) (t.value arithmetic) := by
  match t with
  | .chain f ps =>
      rw [Term.value_chain, Term.value_chain]
      exact (agrees_factor f).bind (fun _ _ h => agrees_products ps h) (agrees_products_none ps)

/-- A chain of terms goes on with agreement. -/
theorem agrees_sums (ss : Sums) {x : Option Int} {y : Binary64} (h : IsExact x y) :
    Agrees (ss.fold wholeArithmetic x) (ss.fold arithmetic y) := by
  match ss with
  | .nil => exact .value h
  | .cons sign t ss =>
      rw [Sums.fold_cons, Sums.fold_cons]
      apply (agrees_term t).bind
      · intro x' y' h'
        exact agrees_sums ss (isExact_combine sign h h')
      · have nothing : sign.combine wholeArithmetic x none = none := by
          cases sign <;> cases x <;> rfl
        rw [nothing]
        exact agrees_sums_none ss

/-- **The values of an expression agree,** that in integers and that in binary64 numbers, if no part
of it is lost: one induction over the five kinds of derivations. -/
theorem agrees_expr (e : Expr) : Agrees (e.value wholeArithmetic) (e.value arithmetic) := by
  match e with
  | .chain t ss =>
      rw [Expr.value_chain, Expr.value_chain]
      exact (agrees_term t).bind (fun _ _ h => agrees_sums ss h) (agrees_sums_none ss)

end

/-! ### Evaluation -/

/-- **Integer expressions are evaluated exactly.** Let the tokens be the yield of an expression
within the nesting limit. If it has a value in integers, with no literal and no result beyond
`2 ^ 53` and no division that leaves a remainder, the tokens evaluate to a number equal to this
integer. If in integers it divides by zero, the tokens evaluate to that fault. -/
theorem evaluate_exact (e : Expr) (tokens : List String) (yields : e.yield = tokens)
    (shallow : exceeds (some depthLimit) e.depth = false) :
    (∀ n : Int, e.value wholeArithmetic = .ok (some n) →
      ∃ x, evaluate tokens = .ok x ∧ x.rat? = some (n : ℚ)) ∧
    (e.value wholeArithmetic = .error .divisionByZero →
      evaluate tokens = .error .divisionByZero) := by
  subst yields
  rw [← Nat.zero_add e.depth] at shallow
  have agrees := agrees_expr e
  generalize value : e.value arithmetic = s at agrees
  constructor
  · intro n whole
    rw [whole] at agrees
    cases agrees with
    | value h => exact ⟨_, e.evaluate_yield value shallow, h n rfl⟩
  · intro zero
    rw [zero] at agrees
    cases agrees with
    | zero => exact e.evaluate_yield_zero value shallow
    | other apart => exact absurd rfl apart

/-- `2 ^ 53 - 1`, plus one, plus twice a negative quotient. The sum gets to the bound and comes down
again. -/
def atBound : Expr :=
  .chain (.chain (.numeral "9007199254740991") .nil)
    (.cons .plus (.chain (.numeral "1") .nil)
      (.cons .plus (.chain (.numeral "2.0") (.cons .times (.group
        (.chain (.chain (.numeral "7") (.cons .divide (.signed .minus (.numeral "7")) .nil)) .nil))
        .nil)) .nil))

/-- A quotient whose divisor is a negative zero. It is a zero like the other, and divides
nothing. -/
def byNegativeZero : Expr :=
  .chain (.chain (.numeral "1") (.cons .divide (.signed .minus (.group
    (.chain (.chain (.numeral "2.0") .nil) (.cons .minus (.chain (.numeral "2") .nil) .nil))))
    .nil)) .nil

/-- A calculation that reaches `2 ^ 53`, and a divisor that is a negative zero. -/
theorem evaluate_exact_at_bound :
    (∃ x, evaluate ["9007199254740991", "+", "1", "+", "2.0", "*", "(", "7", "/", "-", "7", ")"] =
        .ok x ∧ x.rat? = some ((9007199254740990 : Int) : ℚ)) ∧
      evaluate ["1", "/", "-", "(", "2.0", "-", "2", ")"] = .error .divisionByZero := by
  constructor
  · exact (evaluate_exact atBound _ (by rfl) (by decide)).1 9007199254740990 (by decide +kernel)
  · exact (evaluate_exact byNegativeZero _ (by rfl) (by decide)).2 (by decide +kernel)

end Calculator

end Abacus
