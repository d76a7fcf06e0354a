import Abacus.Proofs.Expression.Grammar

/-!
# Reading as a relation

The five functions of the descent carry proofs that the rest of the input gets shorter, and they
call each other. Here their results are stated without those proofs, and as one relation: `Reads`
has a rule for each way in which a call can end. Statements about the descent are inductions on the
relation.

## Main definitions

* `Level` — the functions of the descent, as places where reading goes on.
* `read` — what a level reads from the front of the input, and the rest.
* `Reads` — the rules of reading.

## Main statements

* `reads_iff` — the rules describe exactly what is read.
* `Reads.leaves` — where a level stops.
* `evaluateLexemes_eq` — the value of a whole input, from what is read at its front.
-/

namespace Abacus.Expression

variable {α : Type} {A : Arithmetic α} {limit : Option Nat}

/-- The places of the descent. A chain goes on from a value. There is one for each of the functions
that read, so that what holds of all of them is said once. -/
inductive Level (α : Type) where
  | expression
  | sums (value : α)
  | term
  | products (value : α)
  | factor

/-- What a level reads from the front of the input at a depth of nesting, and the rest. It is the
function of the level, without what that function proves of the rest. -/
def read (A : Arithmetic α) (limit : Option Nat) :
    Level α → Nat → List (Lexeme α) → Except Fault (α × List (Lexeme α))
  | .expression, d, input => (expression A limit d input).map fun r => (r.value, r.rest)
  | .sums x, d, input => (sums A limit d x input).map fun r => (r.value, r.rest)
  | .term, d, input => (term A limit d input).map fun r => (r.value, r.rest)
  | .products x, d, input => (products A limit d x input).map fun r => (r.value, r.rest)
  | .factor, d, input => (factor A limit d input).map fun r => (r.value, r.rest)

/-- The input does not go on with an operation between terms. -/
def EndsSums (A : Arithmetic α) (input : List (Lexeme α)) : Prop :=
  ∀ l ∈ input.head?, A.sum? l = none

/-- The input does not go on with an operation between factors. -/
def EndsProducts (A : Arithmetic α) (input : List (Lexeme α)) : Prop :=
  ∀ l ∈ input.head?, A.product? l = none

/-! ### The equations of reading -/

theorem read_expression (d : Nat) (input : List (Lexeme α)) :
    read A limit .expression d input =
      match read A limit .term d input with
      | .error fault => .error fault
      | .ok (x, rest) => read A limit (.sums x) d rest := by
  simp only [read]
  rw [expression]
  cases term A limit d input with
  | error fault => rfl
  | ok first => cases h : sums A limit d first.value first.rest <;> simp [Except.map, h]

theorem read_term (d : Nat) (input : List (Lexeme α)) :
    read A limit .term d input =
      match read A limit .factor d input with
      | .error fault => .error fault
      | .ok (x, rest) => read A limit (.products x) d rest := by
  simp only [read]
  rw [term]
  cases factor A limit d input with
  | error fault => rfl
  | ok first => cases h : products A limit d first.value first.rest <;> simp [Except.map, h]

theorem read_sums_of_ends {d : Nat} {x : α} {input : List (Lexeme α)}
    (h : EndsSums A input) :
    read A limit (.sums x) d input = .ok (x, input) := by
  cases input with
  | nil => simp [read, sums, Except.map]
  | cons l rest => simp [read, sums, Except.map, h l rfl]

theorem read_sums_lexeme (d : Nat) (x : α) (s : Sign) (input : List (Lexeme α)) :
    read A limit (.sums x) d (s.lexeme :: input) =
      match read A limit .term d input with
      | .error fault => .error fault
      | .ok (y, rest) => read A limit (.sums (s.combine A x y)) d rest := by
  simp only [read]
  rw [sums]
  cases term A limit d input with
  | error fault => simp [Except.map]
  | ok next =>
      cases h : sums A limit d (s.combine A x next.value) next.rest <;> simp [Except.map, h]

theorem read_products_of_ends {d : Nat} {x : α} {input : List (Lexeme α)}
    (h : EndsProducts A input) :
    read A limit (.products x) d input = .ok (x, input) := by
  cases input with
  | nil => simp [read, products, Except.map]
  | cons l rest => simp [read, products, Except.map, h l rfl]

theorem read_products_lexeme (d : Nat) (x : α) (s : Scale) (input : List (Lexeme α)) :
    read A limit (.products x) d (s.lexeme :: input) =
      match read A limit .factor d input with
      | .error fault => .error fault
      | .ok (y, rest) =>
        match s.combine A x y with
        | .error fault => .error fault
        | .ok z => read A limit (.products z) d rest := by
  simp only [read]
  rw [products]
  cases factor A limit d input with
  | error fault => simp [Except.map]
  | ok next =>
      cases combined : s.combine A x next.value with
      | error fault => simp [Except.map, combined]
      | ok z => cases h : products A limit d z next.rest <;> simp [Except.map, combined, h]

theorem read_factor_nil (d : Nat) : read A limit .factor d [] = .error .unexpectedEnd := by
  simp [read, factor, Except.map]

theorem read_factor_sign (d : Nat) (s : Sign) (input : List (Lexeme α)) :
    read A limit .factor d (s.lexeme :: input) =
      if exceeds limit (d + signDepth) then .error .tooDeep
      else
        match read A limit .factor (d + signDepth) input with
        | .error fault => .error fault
        | .ok (x, rest) => .ok (s.apply A x, rest) := by
  simp only [read]
  rw [factor.eq_def]
  simp only [Sign.sign?_lexeme]
  split
  · rfl
  · cases factor A limit (d + signDepth) input <;> rfl

theorem read_factor_number (d : Nat) (token : String) (x : α) (input : List (Lexeme α)) :
    read A limit .factor d (.number token x :: input) = .ok (x, input) := by
  simp [read, factor, Arithmetic.sign?, Except.map]

theorem read_factor_opening (d : Nat) (input : List (Lexeme α)) :
    read A limit .factor d (.opening :: input) =
      if exceeds limit (d + groupDepth) then .error .tooDeep
      else
        match read A limit .expression (d + groupDepth) input with
        | .error fault => .error fault
        | .ok (x, .closing :: rest) => .ok (x, rest)
        | .ok _ => .error .missingClosingParen := by
  simp only [read]
  rw [factor.eq_def]
  simp only [Arithmetic.sign?]
  split
  · rfl
  · cases expression A limit (d + groupDepth) input with
    | error fault => rfl
    | ok inner =>
        obtain ⟨x, rest, shorter⟩ := inner
        cases rest with
        | nil => rfl
        | cons l _ => cases l <;> rfl

/-- Lexemes that begin no factor. A factor that has to start here is refused, and so is every level
above it. -/
def BeginsNoFactor : Lexeme α → Prop
  | .times | .divide | .closing | .word _ => True
  | .plus | .minus | .opening | .number _ _ => False

theorem read_factor_other {l : Lexeme α} (h : BeginsNoFactor l) (d : Nat)
    (input : List (Lexeme α)) :
    read A limit .factor d (l :: input) = .error (.invalidToken l.token) := by
  cases l <;> first | exact h.elim | simp [read, factor, Arithmetic.sign?, Except.map]

/-! ### The rules of reading -/

/-- `Reads A limit level d input result`: at a depth of nesting, reading a level from the front of
the input ends with the result, a fault or a value and the rest of the input. -/
inductive Reads (A : Arithmetic α) (limit : Option Nat) :
    Level α → Nat → List (Lexeme α) → Except Fault (α × List (Lexeme α)) → Prop
  /-- The first term of an expression fails. -/
  | expressionFault {d input fault} :
      Reads A limit .term d input (.error fault) →
      Reads A limit .expression d input (.error fault)
  /-- The first term of an expression is followed by its chain. -/
  | expression {d input x rest result} :
      Reads A limit .term d input (.ok (x, rest)) →
      Reads A limit (.sums x) d rest result →
      Reads A limit .expression d input result
  /-- A chain of terms ends. -/
  | sumsEnd {d x input} : EndsSums A input → Reads A limit (.sums x) d input (.ok (x, input))
  /-- A further term fails. -/
  | sumsFault {d x s input fault} :
      Reads A limit .term d input (.error fault) →
      Reads A limit (.sums x) d (Sign.lexeme s :: input) (.error fault)
  /-- A further term is added or subtracted. -/
  | sums {d x s input y rest result} :
      Reads A limit .term d input (.ok (y, rest)) →
      Reads A limit (.sums (Sign.combine A s x y)) d rest result →
      Reads A limit (.sums x) d (s.lexeme :: input) result
  /-- The first factor of a term fails. -/
  | termFault {d input fault} :
      Reads A limit .factor d input (.error fault) → Reads A limit .term d input (.error fault)
  /-- The first factor of a term is followed by its chain. -/
  | term {d input x rest result} :
      Reads A limit .factor d input (.ok (x, rest)) →
      Reads A limit (.products x) d rest result →
      Reads A limit .term d input result
  /-- A chain of factors ends. -/
  | productsEnd {d x input} :
      EndsProducts A input → Reads A limit (.products x) d input (.ok (x, input))
  /-- A further factor fails. -/
  | productsFault {d x s input fault} :
      Reads A limit .factor d input (.error fault) →
      Reads A limit (.products x) d (Scale.lexeme s :: input) (.error fault)
  /-- A further factor may not divide. -/
  | productsZero {d x s input y rest fault} :
      Reads A limit .factor d input (.ok (y, rest)) →
      Scale.combine A s x y = .error fault →
      Reads A limit (.products x) d (s.lexeme :: input) (.error fault)
  /-- A further factor multiplies or divides. -/
  | products {d x s input y z rest result} :
      Reads A limit .factor d input (.ok (y, rest)) →
      Scale.combine A s x y = .ok z →
      Reads A limit (.products z) d rest result →
      Reads A limit (.products x) d (s.lexeme :: input) result
  /-- There is no factor at the end. -/
  | factorEnd {d} : Reads A limit .factor d [] (.error .unexpectedEnd)
  /-- A sign nests too deep. -/
  | signDeep {d s input} :
      exceeds limit (d + signDepth) = true →
      Reads A limit .factor d (Sign.lexeme s :: input) (.error .tooDeep)
  /-- The factor after a sign fails. -/
  | signFault {d s input fault} :
      exceeds limit (d + signDepth) = false →
      Reads A limit .factor (d + signDepth) input (.error fault) →
      Reads A limit .factor d (Sign.lexeme s :: input) (.error fault)
  /-- A sign applies to the factor after it. -/
  | sign {d s input x rest} :
      exceeds limit (d + signDepth) = false →
      Reads A limit .factor (d + signDepth) input (.ok (x, rest)) →
      Reads A limit .factor d (Sign.lexeme s :: input) (.ok (s.apply A x, rest))
  /-- A number is a factor. -/
  | number {d token x input} :
      Reads A limit .factor d (.number token x :: input) (.ok (x, input))
  /-- A group nests too deep. -/
  | groupDeep {d input} :
      exceeds limit (d + groupDepth) = true →
      Reads A limit .factor d (.opening :: input) (.error .tooDeep)
  /-- The expression of a group fails. -/
  | groupFault {d input fault} :
      exceeds limit (d + groupDepth) = false →
      Reads A limit .expression (d + groupDepth) input (.error fault) →
      Reads A limit .factor d (.opening :: input) (.error fault)
  /-- A group is an expression and a closing parenthesis. -/
  | group {d input x rest} :
      exceeds limit (d + groupDepth) = false →
      Reads A limit .expression (d + groupDepth) input (.ok (x, .closing :: rest)) →
      Reads A limit .factor d (.opening :: input) (.ok (x, rest))
  /-- A group is not closed. -/
  | groupOpen {d input x rest} :
      exceeds limit (d + groupDepth) = false →
      Reads A limit .expression (d + groupDepth) input (.ok (x, rest)) →
      rest.head? ≠ some .closing →
      Reads A limit .factor d (.opening :: input) (.error .missingClosingParen)
  /-- Nothing else is a factor. -/
  | other {d l input} :
      BeginsNoFactor l → Reads A limit .factor d (l :: input) (.error (.invalidToken l.token))

/-- What the rules derive is what is read. By the rules alone a level reads one thing at most. -/
theorem Reads.read_eq {level : Level α} {d : Nat} {input : List (Lexeme α)}
    {result : Except Fault (α × List (Lexeme α))} (h : Reads A limit level d input result) :
    read A limit level d input = result := by
  induction h with
  | expressionFault _ ih => rw [read_expression, ih]
  | expression _ _ first rest => rw [read_expression, first]; exact rest
  | sumsEnd ends => exact read_sums_of_ends ends
  | sumsFault _ ih => rw [read_sums_lexeme, ih]
  | sums _ _ next rest => rw [read_sums_lexeme, next]; exact rest
  | termFault _ ih => rw [read_term, ih]
  | term _ _ first rest => rw [read_term, first]; exact rest
  | productsEnd ends => exact read_products_of_ends ends
  | productsFault _ ih => rw [read_products_lexeme, ih]
  | productsZero _ zero next => rw [read_products_lexeme, next]; simp only [zero]
  | products _ combined _ next rest =>
      rw [read_products_lexeme, next]
      simp only [combined]
      exact rest
  | factorEnd => exact read_factor_nil _
  | signDeep deep => rw [read_factor_sign, if_pos deep]
  | signFault shallow _ ih => rw [read_factor_sign, if_neg (by simp [shallow]), ih]
  | sign shallow _ ih => rw [read_factor_sign, if_neg (by simp [shallow]), ih]
  | number => exact read_factor_number _ _ _ _
  | groupDeep deep => rw [read_factor_opening, if_pos deep]
  | groupFault shallow _ ih => rw [read_factor_opening, if_neg (by simp [shallow]), ih]
  | group shallow _ ih => rw [read_factor_opening, if_neg (by simp [shallow]), ih]
  | groupOpen shallow _ isOpen ih =>
      rw [read_factor_opening, if_neg (by simp [shallow]), ih]
      grind
  | other none => exact read_factor_other none _ _

/-- Reading a term takes at least one lexeme. It is proved by the function itself, which gives it
with what it reads. -/
theorem length_lt_of_read_term {d : Nat} {input rest : List (Lexeme α)} {x : α}
    (h : read A limit .term d input = .ok (x, rest)) : rest.length < input.length := by
  simp only [read] at h
  cases found : term A limit d input with
  | error fault => simp [found, Except.map] at h
  | ok first =>
      simp only [found, Except.map, Except.ok.injEq, Prod.mk.injEq] at h
      exact h.2 ▸ first.shorter

/-- Reading a factor takes at least one lexeme. -/
theorem length_lt_of_read_factor {d : Nat} {input rest : List (Lexeme α)} {x : α}
    (h : read A limit .factor d input = .ok (x, rest)) : rest.length < input.length := by
  simp only [read] at h
  cases found : factor A limit d input with
  | error fault => simp [found, Except.map] at h
  | ok first =>
      simp only [found, Except.map, Except.ok.injEq, Prod.mk.injEq] at h
      exact h.2 ▸ first.shorter

/-- A chain of terms goes on with a sign, or it ends. One lexeme decides. -/
theorem endsSums_or_exists (A : Arithmetic α) (input : List (Lexeme α)) :
    EndsSums A input ∨ ∃ (s : Sign) (rest : List (Lexeme α)), input = s.lexeme :: rest := by
  cases input with
  | nil => exact .inl (by simp [EndsSums])
  | cons l rest =>
      cases meaning : A.sum? l with
      | none => exact .inl (by simpa [EndsSums] using meaning)
      | some c =>
          obtain ⟨s, rfl, -⟩ := Sign.exists_of_sum?_eq_some meaning
          exact .inr ⟨s, rest, rfl⟩

/-- A chain of factors goes on with an operator, or it ends. -/
theorem endsProducts_or_exists (A : Arithmetic α) (input : List (Lexeme α)) :
    EndsProducts A input ∨ ∃ (s : Scale) (rest : List (Lexeme α)), input = s.lexeme :: rest := by
  cases input with
  | nil => exact .inl (by simp [EndsProducts])
  | cons l rest =>
      cases meaning : A.product? l with
      | none => exact .inl (by simpa [EndsProducts] using meaning)
      | some c =>
          obtain ⟨s, rfl, -⟩ := Scale.exists_of_product?_eq_some meaning
          exact .inr ⟨s, rest, rfl⟩

/-- A sign is read as the rules say, if what follows it is. -/
theorem reads_read_sign {d : Nat} (s : Sign) {operand : List (Lexeme α)}
    (h : Reads A limit .factor (d + signDepth) operand
      (read A limit .factor (d + signDepth) operand)) :
    Reads A limit .factor d (s.lexeme :: operand)
      (read A limit .factor d (s.lexeme :: operand)) := by
  rw [read_factor_sign]
  by_cases deep : exceeds limit (d + signDepth) = true
  · rw [if_pos deep]
    exact .signDeep deep
  · rw [if_neg deep]
    match found : read A limit .factor (d + signDepth) operand with
    | .error fault => exact .signFault (by simpa using deep) (found ▸ h)
    | .ok (x, rest) => exact .sign (by simpa using deep) (found ▸ h)

/-- A group is read as the rules say, if its expression is. -/
theorem reads_read_opening {d : Nat} {inner : List (Lexeme α)}
    (h : Reads A limit .expression (d + groupDepth) inner
      (read A limit .expression (d + groupDepth) inner)) :
    Reads A limit .factor d (.opening :: inner) (read A limit .factor d (.opening :: inner)) := by
  rw [read_factor_opening]
  by_cases deep : exceeds limit (d + groupDepth) = true
  · rw [if_pos deep]
    exact .groupDeep deep
  · rw [if_neg deep]
    have shallow : exceeds limit (d + groupDepth) = false := by simpa using deep
    match found : read A limit .expression (d + groupDepth) inner with
    | .error fault => exact .groupFault shallow (found ▸ h)
    | .ok (x, .closing :: rest) => exact .group shallow (found ▸ h)
    | .ok (x, []) => exact .groupOpen shallow (found ▸ h) (by simp)
    | .ok (x, .plus :: rest) | .ok (x, .minus :: rest) | .ok (x, .times :: rest)
    | .ok (x, .divide :: rest) | .ok (x, .opening :: rest) | .ok (x, .number _ _ :: rest)
    | .ok (x, .word _ :: rest) => exact .groupOpen shallow (found ▸ h) (by simp)

/-- A lexeme that begins no factor is read as the rules say. -/
theorem reads_read_other {d : Nat} {l : Lexeme α} {rest : List (Lexeme α)}
    (h : BeginsNoFactor l) :
    Reads A limit .factor d (l :: rest) (read A limit .factor d (l :: rest)) := by
  rw [read_factor_other h]
  exact .other h

/-- The order in which the levels call each other on one input. Levels of the same rank call each
other on shorter inputs only. -/
def Level.rank : Level α → Nat
  | .expression => 2
  | .term => 1
  | .sums _ | .products _ | .factor => 0

/-- What is read is derived by the rules. So every input is read in some way, and the rules leave no
case out. -/
theorem reads_read (A : Arithmetic α) (limit : Option Nat) (level : Level α) (d : Nat)
    (input : List (Lexeme α)) : Reads A limit level d input (read A limit level d input) := by
  -- By recursion on the length of the input and the rank of the level, like the functions that
  -- read.
  match level with
  | .expression =>
      have first := reads_read A limit .term d input
      rw [read_expression]
      match found : read A limit .term d input with
      | .error fault => exact .expressionFault (found ▸ first)
      | .ok (x, rest) =>
          have := length_lt_of_read_term found
          exact .expression (found ▸ first) (reads_read A limit (.sums x) d rest)
  | .sums x =>
      obtain ends | ⟨s, operand, same⟩ := endsSums_or_exists A input
      · rw [read_sums_of_ends ends]
        exact .sumsEnd ends
      · have shorter : operand.length < input.length := by simp [same]
        have next := reads_read A limit .term d operand
        rw [same, read_sums_lexeme]
        match found : read A limit .term d operand with
        | .error fault => exact .sumsFault (found ▸ next)
        | .ok (y, rest) =>
            have := length_lt_of_read_term found
            exact .sums (found ▸ next) (reads_read A limit (.sums (s.combine A x y)) d rest)
  | .term =>
      have first := reads_read A limit .factor d input
      rw [read_term]
      match found : read A limit .factor d input with
      | .error fault => exact .termFault (found ▸ first)
      | .ok (x, rest) =>
          have := length_lt_of_read_factor found
          exact .term (found ▸ first) (reads_read A limit (.products x) d rest)
  | .products x =>
      obtain ends | ⟨s, operand, same⟩ := endsProducts_or_exists A input
      · rw [read_products_of_ends ends]
        exact .productsEnd ends
      · have shorter : operand.length < input.length := by simp [same]
        have next := reads_read A limit .factor d operand
        rw [same, read_products_lexeme]
        match found : read A limit .factor d operand with
        | .error fault => exact .productsFault (found ▸ next)
        | .ok (y, rest) =>
            have := length_lt_of_read_factor found
            match combined : s.combine A x y with
            | .error fault =>
                simp only [combined]
                exact .productsZero (found ▸ next) combined
            | .ok z =>
                simp only [combined]
                exact .products (found ▸ next) combined (reads_read A limit (.products z) d rest)
  | .factor =>
      match input with
      | [] =>
          rw [read_factor_nil]
          exact .factorEnd
      | .plus :: operand => exact reads_read_sign .plus (reads_read A limit .factor _ operand)
      | .minus :: operand => exact reads_read_sign .minus (reads_read A limit .factor _ operand)
      | .number token x :: rest =>
          rw [read_factor_number]
          exact .number
      | .opening :: inner => exact reads_read_opening (reads_read A limit .expression _ inner)
      | .times :: _ | .divide :: _ | .closing :: _ | .word _ :: _ => exact reads_read_other trivial
termination_by 3 * input.length + level.rank
decreasing_by
  all_goals simp_wf
  all_goals simp only [Level.rank]
  all_goals omega

/-- **The rules describe exactly what is read,** faults included. From here on nothing opens the
functions that read. -/
theorem reads_iff {level : Level α} {d : Nat} {input : List (Lexeme α)}
    {result : Except Fault (α × List (Lexeme α))} :
    Reads A limit level d input result ↔ read A limit level d input = result :=
  ⟨Reads.read_eq, fun h => h ▸ reads_read A limit level d input⟩

/-! ### Where reading ends -/

/-- What is left by a level: a chain is read to its end. A chain of terms does not look at operators
between factors, so these are absent after it if they were absent before it. -/
def Leaves (A : Arithmetic α) : Level α → List (Lexeme α) → List (Lexeme α) → Prop
  | .expression, _, rest => EndsSums A rest ∧ EndsProducts A rest
  | .sums _, input, rest => EndsSums A rest ∧ (EndsProducts A input → EndsProducts A rest)
  | .term, _, rest | .products _, _, rest => EndsProducts A rest
  | .factor, _, _ => True

/-- A level that reads a value goes on as far as it can. What it leaves begins with nothing that it
could take. -/
theorem Reads.leaves {level : Level α} {d : Nat} {input : List (Lexeme α)}
    {result : Except Fault (α × List (Lexeme α))} (h : Reads A limit level d input result)
    {v : α} {rest : List (Lexeme α)} (found : result = .ok (v, rest)) :
    Leaves A level input rest := by
  induction h generalizing v rest with
  | expressionFault | sumsFault | termFault | productsFault | productsZero | factorEnd | signDeep
  | signFault | groupDeep | groupFault | groupOpen | other => cases found
  | expression _ _ first next => exact ⟨(next found).1, (next found).2 (first rfl)⟩
  | sumsEnd ends =>
      cases found
      exact ⟨ends, id⟩
  | sums _ _ first next => exact ⟨(next found).1, fun _ => (next found).2 (first rfl)⟩
  | term _ _ _ next => exact next found
  | productsEnd ends =>
      cases found
      exact ends
  | products _ _ _ _ next => exact next found
  | sign | number | group => trivial

/-- A whole input is an expression with nothing after it. -/
theorem evaluateLexemes_eq (input : List (Lexeme α)) :
    evaluateLexemes A limit input =
      match read A limit .expression 0 input with
      | .error fault => .error fault
      | .ok (x, []) => .ok x
      | .ok (_, l :: _) => .error (.unexpectedToken l.token) := by
  simp only [read, evaluateLexemes]
  cases expression A limit 0 input with
  | error fault => rfl
  | ok reading => obtain ⟨x, rest, shorter⟩ := reading; cases rest <;> rfl

/-- Tokens are evaluated through their meanings. No tokens have no value. -/
theorem evaluate_eq_of_ne_nil {tokens : List String} (h : tokens ≠ []) :
    evaluate A limit tokens = evaluateLexemes A limit (lexemes A tokens) := by
  rw [evaluate, if_neg (by simpa using h), lexemes]

end Abacus.Expression
