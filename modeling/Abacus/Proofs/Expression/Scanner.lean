import Abacus.Proofs.Expression.Machine

/-!
# A scanner without values

A bracket counter and a mode are enough to say where a list of tokens stops being an expression and
with which fault. The scanner evaluates nothing, so it meets neither zero divisors nor limits. Its
points also tell how deep the tokens are nested.

## Main definitions

* `Outline` — the mode and the bracket counter; `Outline.step`, `run`, `finish`, `scan`.
* `Point` — an outline with the signs that wait, directly or before an open parenthesis;
  `Point.depth`.

## Main statements

* `point_step`, `point_run` — the machine goes where the scanner goes, within its limit.
* `step_eq_error_cases` — where the machine fails, the scanner fails alike, unless a divisor is zero
  or the limit is exceeded.
* `Factor.outline_run` — the scanner takes the yield of a factor for an operand.
-/

namespace Abacus.Expression

variable {α : Type} {A : Arithmetic α} {limit : Option Nat}

/-- What a scan of tokens expects. -/
inductive Mode where
  | operand
  | operator
  deriving DecidableEq, Repr

/-- A mode and the number of parentheses still open. No value is computed, and no limit is known. -/
structure Outline where
  mode : Mode
  brackets : Nat
  deriving DecidableEq, Repr

namespace Outline

/-- Before the first token. -/
def start : Outline := ⟨.operand, 0⟩

/-- One token. -/
def step (A : Arithmetic α) : Outline → String → Except Fault Outline
  | ⟨.operand, d⟩, t =>
    if t = "+" ∨ t = "-" then .ok ⟨.operand, d⟩
    else if t = "(" then .ok ⟨.operand, d + 1⟩
    else if (A.numeral? t).isSome then .ok ⟨.operator, d⟩
    else .error (.invalidToken t)
  | ⟨.operator, d⟩, t =>
    if t = "+" ∨ t = "-" ∨ t = "*" ∨ t = "/" then .ok ⟨.operand, d⟩
    else if t = ")" ∧ 0 < d then .ok ⟨.operator, d - 1⟩
    else if 0 < d then .error .missingClosingParen
    else .error (.unexpectedToken t)

/-- The end of the tokens. -/
def finish : Outline → Except Fault Unit
  | ⟨.operand, _⟩ => .error .unexpectedEnd
  | ⟨.operator, d⟩ => if 0 < d then .error .missingClosingParen else .ok ()

/-- Tokens, one after the other. -/
def run (A : Arithmetic α) : Outline → List String → Except Fault Outline :=
  runs (step A)

/-- All tokens, and the end. -/
def scan (A : Arithmetic α) (tokens : List String) : Except Fault Unit :=
  (run A start tokens).bind finish

@[simp]
theorem step_operand_sign (d : Nat) (s : Sign) :
    step A ⟨.operand, d⟩ s.token = .ok ⟨.operand, d⟩ := by
  cases s <;> simp [step, Sign.token]

@[simp]
theorem step_operand_opening (d : Nat) :
    step A ⟨.operand, d⟩ "(" = .ok ⟨.operand, d + 1⟩ := by
  simp [step]

theorem step_operand_numeral {t : String} (h : (A.numeral? t).isSome = true) (d : Nat) :
    step A ⟨.operand, d⟩ t = .ok ⟨.operator, d⟩ := by
  have noSymbol := notMem_symbols_of_isSome h
  simp only [Lexeme.symbols, List.mem_cons, List.not_mem_nil, or_false, not_or] at noSymbol
  simp [step, h, noSymbol]

@[simp]
theorem step_operator_sign (d : Nat) (s : Sign) :
    step A ⟨.operator, d⟩ s.token = .ok ⟨.operand, d⟩ := by
  cases s <;> simp [step, Sign.token]

@[simp]
theorem step_operator_scale (d : Nat) (s : Scale) :
    step A ⟨.operator, d⟩ s.token = .ok ⟨.operand, d⟩ := by
  cases s <;> simp [step, Scale.token]

@[simp]
theorem step_operator_closing (d : Nat) :
    step A ⟨.operator, d + 1⟩ ")" = .ok ⟨.operator, d⟩ := by
  simp [step]

/-- What begins no factor stops a scan that expects an operand. -/
theorem step_operand_stop {t : String} {l : Lexeme α} (kind : Means A t l)
    (none : BeginsNoFactor l) (d : Nat) :
    step A ⟨.operand, d⟩ t = .error (.invalidToken t) := by
  cases kind with
  | sign s => cases s <;> exact none.elim
  | scale s => cases s <;> simp [step, Scale.token, Arithmetic.numeral?, Lexeme.symbols]
  | opening | number => exact none.elim
  | closing => simp [step, Arithmetic.numeral?, Lexeme.symbols]
  | word noSymbol noNumeral =>
      simp only [Lexeme.symbols, List.mem_cons, List.not_mem_nil, or_false, not_or] at noSymbol
      simp [step, noSymbol, noNumeral]

/-- What neither goes on with an operator nor closes a group stops a scan that expects an
operator. -/
theorem step_operator_stop {t : String} {l : Lexeme α} {d : Nat} (kind : Means A t l)
    (noSum : A.sum? l = none) (noProduct : A.product? l = none) (unclosed : l = .closing → d = 0) :
    step A ⟨.operator, d⟩ t =
      .error (if 0 < d then .missingClosingParen else .unexpectedToken t) := by
  cases kind with
  | sign s => simp at noSum
  | scale s => simp at noProduct
  | opening => by_cases isOpen : 0 < d <;> simp [step, isOpen]
  | closing => simp [step, unclosed rfl]
  | number reading =>
      have noSymbol := notMem_symbols_of_isSome (Option.isSome_of_eq_some reading)
      simp only [Lexeme.symbols, List.mem_cons, List.not_mem_nil, or_false, not_or] at noSymbol
      by_cases isOpen : 0 < d <;> simp [step, isOpen, noSymbol]
  | word noSymbol _ =>
      simp only [Lexeme.symbols, List.mem_cons, List.not_mem_nil, or_false, not_or] at noSymbol
      by_cases isOpen : 0 < d <;> simp [step, isOpen, noSymbol]

/-- A scan stops at a token that is no operand, at one behind an open group, or at one behind a
complete expression. -/
theorem step_eq_error_cases {o : Outline} {t : String} {fault : Fault}
    (h : o.step A t = .error fault) :
    fault = .invalidToken t ∨ fault = .missingClosingParen ∨ fault = .unexpectedToken t := by
  obtain ⟨mode, d⟩ := o
  cases mode <;> simp only [step] at h <;> grind

theorem run_cons (o : Outline) (t : String) (tokens : List String) :
    run A o (t :: tokens) = (o.step A t).bind fun next => run A next tokens := rfl

theorem run_append (o : Outline) (xs ys : List String) :
    run A o (xs ++ ys) = (run A o xs).bind fun next => run A next ys :=
  runs_append ..

/-- A step takes a symbol or a numeral. -/
theorem legible_of_step {o next : Outline} {t : String} (h : o.step A t = .ok next) :
    t ∈ Lexeme.symbols ∨ (A.numeral? t).isSome = true := by
  obtain ⟨mode, d⟩ := o
  rw [Lexeme.symbols]
  cases mode <;> simp only [step] at h <;> grind

/-- A scan that goes on to the end has met symbols and numerals only. Its other faults are matters
of order. -/
theorem legible_of_run {o next : Outline} {tokens : List String}
    (h : run A o tokens = .ok next) :
    ∀ t ∈ tokens, t ∈ Lexeme.symbols ∨ (A.numeral? t).isSome = true := by
  induction tokens generalizing o with
  | nil => simp
  | cons t tokens ih =>
      obtain ⟨middle, stepped, h⟩ := runs_cons_eq_ok.1 h
      exact List.forall_mem_cons.2 ⟨legible_of_step stepped, ih h⟩

end Outline

/-! ### Derivations under a scan -/

mutual

/-- A scan takes the yield of a factor for one operand. Parentheses inside are open for a while, and
none is left. -/
theorem Factor.outline_run (f : Factor) (legible : f.Legible A) (d : Nat) :
    Outline.run A ⟨.operand, d⟩ f.yield = .ok ⟨.operator, d⟩ := by
  match f with
  | .signed s f =>
      rw [Factor.yield, Outline.run_cons, Outline.step_operand_sign]
      exact Factor.outline_run f legible d
  | .group e =>
      rw [Factor.yield, Outline.run_cons, Outline.step_operand_opening, Except.bind,
        Outline.run_append, Expr.outline_run e legible (d + 1), Except.bind, Outline.run_cons,
        Outline.step_operator_closing]
      rfl
  | .numeral t =>
      rw [Factor.yield, Outline.run_cons, Outline.step_operand_numeral legible]
      rfl

/-- A scan comes back to where it was after a chain of factors. -/
theorem Products.outline_run (ps : Products) (legible : ps.Legible A) (d : Nat) :
    Outline.run A ⟨.operator, d⟩ ps.yield = .ok ⟨.operator, d⟩ := by
  match ps with
  | .nil => rfl
  | .cons s f ps =>
      rw [Products.yield, Outline.run_cons, Outline.step_operator_scale, Except.bind,
        Outline.run_append, Factor.outline_run f legible.1 d]
      exact Products.outline_run ps legible.2 d

/-- A scan takes the yield of a term for one operand. -/
theorem Term.outline_run (t : Term) (legible : t.Legible A) (d : Nat) :
    Outline.run A ⟨.operand, d⟩ t.yield = .ok ⟨.operator, d⟩ := by
  match t with
  | .chain f ps =>
      rw [Term.yield, Outline.run_append, Factor.outline_run f legible.1 d]
      exact Products.outline_run ps legible.2 d

/-- A scan comes back to where it was after a chain of terms. -/
theorem Sums.outline_run (ss : Sums) (legible : ss.Legible A) (d : Nat) :
    Outline.run A ⟨.operator, d⟩ ss.yield = .ok ⟨.operator, d⟩ := by
  match ss with
  | .nil => rfl
  | .cons s t ss =>
      rw [Sums.yield, Outline.run_cons, Outline.step_operator_sign, Except.bind,
        Outline.run_append, Term.outline_run t legible.1 d]
      exact Sums.outline_run ss legible.2 d

/-- A scan takes the yield of an expression for one operand. -/
theorem Expr.outline_run (e : Expr) (legible : e.Legible A) (d : Nat) :
    Outline.run A ⟨.operand, d⟩ e.yield = .ok ⟨.operator, d⟩ := by
  match e with
  | .chain t ss =>
      rw [Expr.yield, Outline.run_append, Term.outline_run t legible.1 d]
      exact Sums.outline_run ss legible.2 d

end

/-- Tokens that have a value are symbols and numerals. -/
theorem legible_of_evaluate {tokens : List String} {v : α}
    (h : evaluate A limit tokens = .ok v) :
    ∀ t ∈ tokens, t ∈ Lexeme.symbols ∨ (A.numeral? t).isSome = true := by
  obtain ⟨e, rfl, legible, -⟩ := evaluate_eq_ok_iff.1 h
  exact Outline.legible_of_run (e.outline_run legible 0)

/-- What a level expects first. -/
def Level.mode : Level α → Mode
  | .expression | .term | .factor => .operand
  | .sums _ | .products _ => .operator

/-- What a level spells leaves a scan after an operand, with the same groups open. A level that goes
on from a value starts there too. -/
theorem Spells.outline_run {level : Level α} {d : Nat} {used : List String} {v : α}
    (h : Spells A limit d level used v) (k : Nat) :
    Outline.run A ⟨level.mode, k⟩ used = .ok ⟨.operator, k⟩ := by
  cases level with
  | expression =>
      obtain ⟨e, rfl, legible, -⟩ := h
      exact e.outline_run legible k
  | sums x =>
      obtain ⟨ss, rfl, legible, -⟩ := h
      exact ss.outline_run legible k
  | term =>
      obtain ⟨t, rfl, legible, -⟩ := h
      exact t.outline_run legible k
  | products x =>
      obtain ⟨ps, rfl, legible, -⟩ := h
      exact ps.outline_run legible k
  | factor =>
      obtain ⟨f, rfl, legible, -⟩ := h
      exact f.outline_run legible k

/-! ### Points and their depth -/

/-- A place between two tokens, as a scan reaches it. Over its outline it has the signs that wait,
which a scan does not need, but the nesting counts. -/
structure Point where
  outline : Outline
  /-- The signs directly before the operand that comes next. -/
  signs : Nat
  /-- The signs before each open parenthesis, the innermost first. -/
  groups : List Nat

namespace Point

/-- Before the first token. -/
def start : Point := ⟨.start, 0, []⟩

/-- The nesting at a point: three for each open parenthesis and one for each sign that waits. It is
that of the machine at the same place. -/
def depth (p : Point) : Nat :=
  groupDepth * p.outline.brackets + signDepth * (p.signs + p.groups.sum)

/-- The point after a token. An opening parenthesis takes over the signs before it, a closing one
has them applied, and a sign adds one. -/
def next (p : Point) (o : Outline) : Point :=
  if p.outline.brackets < o.brackets then ⟨o, 0, p.signs :: p.groups⟩
  else if o.brackets < p.outline.brackets then ⟨o, 0, p.groups.tail⟩
  else if p.outline.mode = .operand ∧ o.mode = .operand then ⟨o, p.signs + 1, p.groups⟩
  else ⟨o, 0, p.groups⟩

/-- One token. -/
def step (A : Arithmetic α) (p : Point) (t : String) : Except Fault Point :=
  (p.outline.step A t).map p.next

/-- Tokens, one after the other. -/
def run (A : Arithmetic α) : Point → List String → Except Fault Point :=
  runs (step A)

theorem run_cons (p : Point) (t : String) (tokens : List String) :
    run A p (t :: tokens) = (p.step A t).bind fun next => run A next tokens := rfl

theorem run_append (p : Point) (xs ys : List String) :
    run A p (xs ++ ys) = (run A p xs).bind fun next => run A next ys :=
  runs_append ..

theorem step_operand_sign (d n : Nat) (gs : List Nat) (s : Sign) :
    step A ⟨⟨.operand, d⟩, n, gs⟩ s.token = .ok ⟨⟨.operand, d⟩, n + 1, gs⟩ := by
  simp [step, Except.map, next]

theorem step_operand_opening (d n : Nat) (gs : List Nat) :
    step A ⟨⟨.operand, d⟩, n, gs⟩ "(" = .ok ⟨⟨.operand, d + 1⟩, 0, n :: gs⟩ := by
  simp [step, Except.map, next]

theorem step_operand_numeral {t : String} (h : (A.numeral? t).isSome = true) (d n : Nat)
    (gs : List Nat) : step A ⟨⟨.operand, d⟩, n, gs⟩ t = .ok ⟨⟨.operator, d⟩, 0, gs⟩ := by
  simp [step, Except.map, next, Outline.step_operand_numeral h]

theorem step_operator_sign (d n : Nat) (gs : List Nat) (s : Sign) :
    step A ⟨⟨.operator, d⟩, n, gs⟩ s.token = .ok ⟨⟨.operand, d⟩, 0, gs⟩ := by
  simp [step, Except.map, next]

theorem step_operator_scale (d n : Nat) (gs : List Nat) (s : Scale) :
    step A ⟨⟨.operator, d⟩, n, gs⟩ s.token = .ok ⟨⟨.operand, d⟩, 0, gs⟩ := by
  simp [step, Except.map, next]

theorem step_operator_closing (d n g : Nat) (gs : List Nat) :
    step A ⟨⟨.operator, d + 1⟩, n, g :: gs⟩ ")" = .ok ⟨⟨.operator, d⟩, 0, gs⟩ := by
  have notLess : ¬ d + 1 < d := by omega
  simp [step, Except.map, next, notLess]

@[simp]
theorem outline_next (p : Point) (o : Outline) : (p.next o).outline = o := by
  unfold next
  repeat' split
  all_goals rfl

/-- The points of a scan are its outlines, with more detail. So a scan succeeds or fails the same
with and without it. -/
theorem outline_run (p : Point) (tokens : List String) :
    (run A p tokens).map outline = p.outline.run A tokens := by
  induction tokens generalizing p with
  | nil => rfl
  | cons t tokens ih =>
      rw [run_cons, step, Outline.run_cons]
      cases p.outline.step A t with
      | error fault => rfl
      | ok o =>
          simp only [Except.map, Except.bind]
          exact (ih (p.next o)).trans (by rw [outline_next])

/-- The outline at a point that a scan reaches. -/
theorem outline_run_of_eq_ok {p next : Point} {tokens : List String}
    (h : run A p tokens = .ok next) : p.outline.run A tokens = .ok next.outline := by
  rw [← outline_run, h]
  rfl

end Point

/-- The point that a state of the machine stands at. All values are forgotten, those that wait and
the one in hand. -/
def State.point : State α → Point
  | .operand frame outer =>
    ⟨⟨.operand, outer.length⟩, frame.signs.length, outer.map fun frame => frame.signs.length⟩
  | .operator _ _ outer => ⟨⟨.operator, outer.length⟩, 0, outer.map fun frame => frame.signs.length⟩

theorem State.depth_point (q : State α) : q.point.depth = q.depth := by
  cases q <;> simp only [State.point, Point.depth, State.depth, nesting] <;> grind

/-! ### The machine and the scanner -/

/-- A complete factor leaves the open groups as they are. -/
theorem complete_eq_ok {frame : Frame α} {outer : List (Frame α)} {x : α} {q : State α}
    (h : frame.complete A outer x = .ok q) : ∃ y, q = .operator frame.sum y outer := by
  rw [Frame.complete] at h
  rcases waiting : frame.product with _ | ⟨y, scale⟩ <;> rw [waiting] at h
  · cases h
    exact ⟨_, rfl⟩
  · cases combined : scale.combine A y (frame.signed A x) with
    | error fault => simp [combined, Except.map] at h
    | ok z =>
        simp only [combined, Except.map, Except.ok.injEq] at h
        exact ⟨z, h.symm⟩

/-- A complete factor can only be a zero divisor. Nothing else can be wrong with an operand that was
read. -/
theorem complete_eq_error {frame : Frame α} {outer : List (Frame α)} {x : α} {fault : Fault}
    (h : frame.complete A outer x = .error fault) : fault = .divisionByZero := by
  rw [Frame.complete] at h
  rcases waiting : frame.product with _ | ⟨y, scale⟩ <;> rw [waiting] at h
  · cases h
  · cases combined : scale.combine A y (frame.signed A x) with
    | ok z => simp [combined, Except.map] at h
    | error fault' =>
        simp only [combined, Except.map, Except.error.injEq] at h
        exact h ▸ (Scale.combine_eq_error_iff.1 combined).2.2

/-- The states that a token leads to from a state that expects an operand. These are all that a step
can do there; what is proved of steps goes by these cases. -/
theorem step_operand_cases {frame : Frame α} {outer : List (Frame α)} {t : String} {q : State α}
    (h : step A limit (.operand frame outer) (Lexeme.ofToken A t) = .ok q) :
    (∃ s : Sign, t = s.token ∧ q = .operand { frame with signs := s :: frame.signs } outer ∧
      exceeds limit q.depth = false) ∨
    (t = "(" ∧ q = .operand .empty (frame :: outer) ∧ exceeds limit q.depth = false) ∨
    ((A.numeral? t).isSome = true ∧ ∃ y, q = .operator frame.sum y outer) := by
  have kind := means_ofToken A t
  generalize Lexeme.ofToken A t = l at h kind
  cases kind with
  | sign s =>
      rw [step_operand_sign, Frame.push] at h
      split at h
      · cases h
      · next shallow =>
          cases h
          exact .inl ⟨s, rfl, rfl, by rw [depth_push]; simpa using shallow⟩
  | scale s => cases s <;> cases h
  | opening =>
      rw [step] at h
      split at h
      · cases h
      · next shallow =>
          cases h
          exact .inr (.inl ⟨rfl, rfl, by
            simpa [State.depth, Frame.empty, nesting_cons] using shallow⟩)
  | closing => cases h
  | number reading => exact .inr (.inr ⟨by rw [reading]; rfl, complete_eq_ok h⟩)
  | word => cases h

/-- The states that a token leads to from a state that expects an operator. As before an operand,
nothing else can come of a step. -/
theorem step_operator_cases {sum : Option (α × Sign)} {x : α} {outer : List (Frame α)}
    {t : String} {q : State α}
    (h : step A limit (.operator sum x outer) (Lexeme.ofToken A t) = .ok q) :
    (∃ s : Sign, t = s.token ∧ q = .operand ⟨some (total A sum x, s), none, []⟩ outer) ∨
    (∃ s : Scale, t = s.token ∧ q = .operand ⟨sum, some (x, s), []⟩ outer) ∨
    ∃ frame rest y, t = ")" ∧ outer = frame :: rest ∧ q = .operator frame.sum y rest := by
  have kind := means_ofToken A t
  generalize Lexeme.ofToken A t = l at h kind
  cases kind with
  | sign s =>
      rw [step_operator_sign] at h
      exact .inl ⟨s, rfl, (Except.ok.inj h).symm⟩
  | scale s =>
      rw [step_operator_scale] at h
      exact .inr (.inl ⟨s, rfl, (Except.ok.inj h).symm⟩)
  | closing =>
      cases outer with
      | nil => cases h
      | cons frame rest =>
          obtain ⟨y, rfl⟩ := complete_eq_ok h
          exact .inr (.inr ⟨frame, rest, y, rfl, rfl, rfl⟩)
  | opening | number | word => cases outer <;> cases h

/-- A step of the machine is a step of the scan. The machine may fail where the scan does not, and
never the other way round. -/
theorem point_step {q next : State α} {t : String}
    (h : step A limit q (Lexeme.ofToken A t) = .ok next) :
    q.point.step A t = .ok next.point := by
  cases q with
  | operand frame outer =>
      rcases step_operand_cases h with ⟨s, rfl, rfl, -⟩ | ⟨rfl, rfl, -⟩ | ⟨numeral, y, rfl⟩
      · exact Point.step_operand_sign _ _ _ s
      · exact Point.step_operand_opening _ _ _
      · exact Point.step_operand_numeral numeral _ _ _
  | operator sum x outer =>
      rcases step_operator_cases h with
        ⟨s, rfl, rfl⟩ | ⟨s, rfl, rfl⟩ | ⟨frame, rest, y, rfl, rfl, rfl⟩
      · exact Point.step_operator_sign _ _ _ s
      · exact Point.step_operator_scale _ _ _ s
      · exact Point.step_operator_closing _ _ _ _

/-- The machine stays within its limit. Only moves that enter a level are looked at, as no other
leads deeper. -/
theorem exceeds_depth_step {q next : State α} {t : String}
    (h : step A limit q (Lexeme.ofToken A t) = .ok next) (shallow : exceeds limit q.depth = false) :
    exceeds limit next.depth = false := by
  cases q with
  | operand frame outer =>
      rcases step_operand_cases h with ⟨s, -, -, within⟩ | ⟨-, -, within⟩ | ⟨-, y, rfl⟩
      · exact within
      · exact within
      · exact exceeds_of_le (Nat.le_add_right _ _) shallow
  | operator sum x outer =>
      rcases step_operator_cases h with
        ⟨s, rfl, rfl⟩ | ⟨s, rfl, rfl⟩ | ⟨frame, rest, y, rfl, rfl, rfl⟩
      · exact shallow
      · exact shallow
      · refine exceeds_of_le ?_ shallow
        simp only [State.depth, nesting_cons]
        omega

/-- A run of the machine is a scan within the limit. -/
theorem point_run {q next : State α} {tokens : List String}
    (h : run A limit q (lexemes A tokens) = .ok next) (shallow : exceeds limit q.depth = false) :
    q.point.run A tokens = .ok next.point ∧ exceeds limit next.depth = false := by
  induction tokens generalizing q with
  | nil =>
      cases h
      exact ⟨rfl, shallow⟩
  | cons t tokens ih =>
      obtain ⟨middle, stepped, h⟩ := runs_cons_eq_ok.1 h
      obtain ⟨walked, within⟩ := ih h (exceeds_depth_step stepped shallow)
      exact ⟨runs_cons_eq_ok.2 ⟨middle.point, point_step stepped, walked⟩, within⟩

/-- The machine gets no further than the scan. Whatever it computes on the way, it has the same
order of tokens to keep. -/
theorem outline_run_of_run {q : State α} {tokens : List String}
    (h : run A limit .start (lexemes A tokens) = .ok q) :
    Outline.run A .start tokens = .ok q.point.outline :=
  Point.outline_run_of_eq_ok (point_run h (exceeds_zero limit)).1

/-- A scan stops where it stops at the token after those that the machine takes. The tokens behind
do not matter to either. -/
theorem outline_run_of_stop {q : State α} {before : List String} {t : String} {fault : Fault}
    (h : run A limit .start (lexemes A before) = .ok q)
    (stopped : q.point.outline.step A t = .error fault) (after : List String) :
    Outline.run A .start (before ++ t :: after) = .error fault := by
  rw [Outline.run_append, outline_run_of_run h, Except.bind, Outline.run_cons, stopped]
  rfl

/-- What begins no factor stops the machine before an operand. -/
theorem step_operand_stop {frame : Frame α} {outer : List (Frame α)} {l : Lexeme α}
    (none : BeginsNoFactor l) :
    step A limit (.operand frame outer) l = .error (.invalidToken l.token) := by
  cases l <;> first | rfl | exact none.elim

/-- What neither goes on with an operator nor closes a group stops the machine after an operand. -/
theorem step_operator_stop {sum : Option (α × Sign)} {x : α} {outer : List (Frame α)}
    {l : Lexeme α} (noSum : A.sum? l = none) (noProduct : A.product? l = none)
    (unclosed : l ≠ .closing) :
    step A limit (.operator sum x outer) l =
      .error (if 0 < outer.length then .missingClosingParen else .unexpectedToken l.token) := by
  cases outer with
  | nil => exact step_operator_top noSum noProduct
  | cons frame rest => exact step_operator_unclosed noSum noProduct unclosed

/-- **Where the machine fails, the scanner fails alike,** unless a divisor is zero or the token
nests beyond the limit. -/
theorem step_eq_error_cases {q : State α} {t : String} {fault : Fault}
    (h : step A limit q (Lexeme.ofToken A t) = .error fault) :
    fault = .divisionByZero ∨
    (fault = .tooDeep ∧ ∃ p, q.point.step A t = .ok p ∧ p.outline.mode = .operand ∧
      exceeds limit p.depth = true) ∨
    q.point.outline.step A t = .error fault := by
  have kind := means_ofToken A t
  have spelled := Lexeme.token_ofToken A t
  -- By what the token means, in each of the two modes.
  generalize Lexeme.ofToken A t = l at h kind spelled
  cases q with
  | operand frame outer =>
      have stops (none : BeginsNoFactor l) :
          (State.operand frame outer).point.outline.step A t = .error fault := by
        rw [step_operand_stop none] at h
        have same := Except.error.inj h
        rw [← same, spelled]
        exact Outline.step_operand_stop kind none _
      cases kind with
      | sign s =>
          rw [step_operand_sign, Frame.push] at h
          split at h
          · next deep =>
              refine .inr (.inl ⟨(Except.error.inj h).symm, _, Point.step_operand_sign _ _ _ s,
                rfl, ?_⟩)
              rwa [← depth_push frame outer s, ← State.depth_point] at deep
          · cases h
      | opening =>
          rw [step] at h
          split at h
          · next deep =>
              refine .inr (.inl ⟨(Except.error.inj h).symm, _, Point.step_operand_opening _ _ _,
                rfl, ?_⟩)
              rwa [← depth_open frame outer, ← State.depth_point] at deep
          · cases h
      | number => exact .inl (complete_eq_error h)
      | scale s => exact .inr (.inr (stops (by cases s <;> trivial)))
      | closing | word => exact .inr (.inr (stops trivial))
  | operator sum x outer =>
      have stops (noSum : A.sum? l = none) (noProduct : A.product? l = none)
          (unclosed : l ≠ .closing) :
          (State.operator sum x outer).point.outline.step A t = .error fault := by
        rw [step_operator_stop noSum noProduct unclosed] at h
        have same := Except.error.inj h
        rw [← same, spelled]
        exact Outline.step_operator_stop kind noSum noProduct fun closed => absurd closed unclosed
      cases kind with
      | sign s => simp [step_operator_sign] at h
      | scale s => simp [step_operator_scale] at h
      | closing =>
          cases outer with
          | nil =>
              have same : Fault.unexpectedToken ")" = fault := Except.error.inj h
              refine .inr (.inr ?_)
              rw [← same]
              exact Outline.step_operator_stop .closing rfl rfl fun _ => rfl
          | cons frame rest => exact .inl (complete_eq_error h)
      | opening | number | word => exact .inr (.inr (stops rfl rfl (by simp)))

end Abacus.Expression
