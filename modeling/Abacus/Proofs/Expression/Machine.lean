import Abacus.Proofs.Expression.Derivation

/-!
# Evaluation by a stack machine

The descent, with its recursion turned into data: a machine that takes one lexeme a step and keeps
on a stack what waits for an operand. What the machine does after some lexemes depends on them only
through its state, so statements about prefixes and continuations of a list of tokens are statements
about states.

## Main definitions

* `Frame` — what waits in one group for the operand that is read.
* `State` — the machine before an operand or after one, with the frames of the open groups.
* `step`, `run`, `finish`, `drive` — one lexeme, several lexemes, the end, and all of these.

## Main statements

* `Reads.drives` — the machine goes on from what a level reads.
* `evaluateLexemes_eq_drive` — evaluation is a run of the machine.
* `runs_append` — a run goes on where it stopped.
-/

namespace Abacus.Expression

variable {α : Type} {A : Arithmetic α} {limit : Option Nat}

/-! ### Runs -/

/-- Steps, one after the other, as long as none fails. The machine, the scan and the points of a
scan all run like this, so that what is said of runs is said once. -/
def runs {σ τ : Type} (step : σ → τ → Except Fault σ) : σ → List τ → Except Fault σ
  | q, [] => .ok q
  | q, t :: rest => (step q t).bind fun next => runs step next rest

/-- A run goes on where it stopped. So a run can be cut at any token. -/
theorem runs_append {σ τ : Type} (step : σ → τ → Except Fault σ) (q : σ) (xs ys : List τ) :
    runs step q (xs ++ ys) = (runs step q xs).bind fun next => runs step next ys := by
  induction xs generalizing q with
  | nil => rfl
  | cons t xs ih =>
      simp only [List.cons_append, runs]
      cases step q t with
      | error fault => rfl
      | ok next => exact ih next

/-- A run that succeeds begins with a step that does. -/
theorem runs_cons_eq_ok {σ τ : Type} {step : σ → τ → Except Fault σ} {q r : σ} {t : τ}
    {rest : List τ} : runs step q (t :: rest) = .ok r ↔
      ∃ next, step q t = .ok next ∧ runs step next rest = .ok r := by
  rw [runs]
  cases step q t <;> simp [Except.bind]

/-- The parts of a run that succeeds do, too. -/
theorem runs_append_eq_ok {σ τ : Type} {step : σ → τ → Except Fault σ} {q r : σ} {xs ys : List τ} :
    runs step q (xs ++ ys) = .ok r ↔
      ∃ middle, runs step q xs = .ok middle ∧ runs step middle ys = .ok r := by
  rw [runs_append]
  cases runs step q xs <;> simp [Except.bind]

/-- A run that fails has made some steps and fails at the next one. -/
theorem exists_of_runs_eq_error {σ τ : Type} {step : σ → τ → Except Fault σ} {q : σ} {ts : List τ}
    {fault : Fault} (h : runs step q ts = .error fault) :
    ∃ before t after middle, ts = before ++ t :: after ∧
      runs step q before = .ok middle ∧ step middle t = .error fault := by
  induction ts generalizing q with
  | nil => cases h
  | cons t ts ih =>
      rw [runs] at h
      cases stepped : step q t with
      | error fault' =>
          rw [stepped] at h
          cases h
          exact ⟨[], t, ts, q, rfl, rfl, stepped⟩
      | ok next =>
          rw [stepped] at h
          obtain ⟨before, u, after, middle, rfl, reached, failed⟩ := ih h
          exact ⟨t :: before, u, after, middle, rfl, runs_cons_eq_ok.2 ⟨next, stepped, reached⟩,
            failed⟩

/-! ### The machine -/

/-- What waits in one group while an operand is read: a sum and the sign after it, a product and the
operator after it, and the signs before the operand, the innermost first. -/
structure Frame (α : Type) where
  sum : Option (α × Sign)
  product : Option (α × Scale)
  signs : List Sign

/-- The state of the machine. Its frames are what the open calls of the descent wait for, innermost
first. -/
inductive State (α : Type) where
  /-- An operand comes next. -/
  | operand (frame : Frame α) (outer : List (Frame α))
  /-- A factor is complete, and the product up to it is `value`. -/
  | operator (sum : Option (α × Sign)) (value : α) (outer : List (Frame α))

/-- Nothing waits yet. -/
def Frame.empty : Frame α := ⟨none, none, []⟩

/-- Before the first lexeme. -/
def State.start : State α := .operand .empty []

/-- The sum that waits, with a further term. -/
def total (A : Arithmetic α) : Option (α × Sign) → α → α
  | none, y => y
  | some (x, sign), y => sign.combine A x y

/-- An operand under the signs that wait for it. -/
def Frame.signed (A : Arithmetic α) (frame : Frame α) (x : α) : α :=
  frame.signs.foldl (fun y sign => sign.apply A y) x

/-- The state after an operand: its signs apply, and the product that waits takes it. This is where
a zero divisor is found. A sum that waits goes on waiting, as a product may follow. -/
def Frame.complete (A : Arithmetic α) (frame : Frame α) (outer : List (Frame α)) (x : α) :
    Except Fault (State α) :=
  match frame.product with
  | none => .ok (.operator frame.sum (frame.signed A x) outer)
  | some (y, scale) =>
    (scale.combine A y (frame.signed A x)).map fun z => .operator frame.sum z outer

/-- The nesting that open groups and the signs before them count for. Signs count as long as their
operand is not complete. -/
def nesting (outer : List (Frame α)) : Nat :=
  groupDepth * outer.length + signDepth * (outer.map fun frame => frame.signs.length).sum

/-- The nesting of a state. -/
def State.depth : State α → Nat
  | .operand frame outer => nesting outer + signDepth * frame.signs.length
  | .operator _ _ outer => nesting outer

/-- A sign before an operand. It is innermost of the signs that wait, and enters a level. -/
def Frame.push (limit : Option Nat) (frame : Frame α) (outer : List (Frame α)) (sign : Sign) :
    Except Fault (State α) :=
  if exceeds limit ((State.operand frame outer).depth + signDepth) then .error .tooDeep
  else .ok (.operand { frame with signs := sign :: frame.signs } outer)

/-- One lexeme. What may come next is told by the state alone, whatever is open around it; only a
closing parenthesis and the limit ask for more. -/
def step (A : Arithmetic α) (limit : Option Nat) : State α → Lexeme α → Except Fault (State α)
  | .operand frame outer, .plus => frame.push limit outer .plus
  | .operand frame outer, .minus => frame.push limit outer .minus
  | .operand frame outer, .opening =>
    if exceeds limit ((State.operand frame outer).depth + groupDepth) then .error .tooDeep
    else .ok (.operand .empty (frame :: outer))
  | .operand frame outer, .number _ x => frame.complete A outer x
  | .operand _ _, l => .error (.invalidToken l.token)
  | .operator sum x outer, .plus => .ok (.operand ⟨some (total A sum x, .plus), none, []⟩ outer)
  | .operator sum x outer, .minus => .ok (.operand ⟨some (total A sum x, .minus), none, []⟩ outer)
  | .operator sum x outer, .times => .ok (.operand ⟨sum, some (x, .times), []⟩ outer)
  | .operator sum x outer, .divide => .ok (.operand ⟨sum, some (x, .divide), []⟩ outer)
  | .operator sum x (frame :: outer), .closing => frame.complete A outer (total A sum x)
  | .operator _ _ [], l => .error (.unexpectedToken l.token)
  | .operator _ _ (_ :: _), _ => .error .missingClosingParen

/-- The end of the input. What is missing is an operand, or else a closing parenthesis. -/
def finish (A : Arithmetic α) : State α → Except Fault α
  | .operand _ _ => .error .unexpectedEnd
  | .operator sum x [] => .ok (total A sum x)
  | .operator _ _ (_ :: _) => .error .missingClosingParen

/-- Lexemes, one after the other. -/
def run (A : Arithmetic α) (limit : Option Nat) :
    State α → List (Lexeme α) → Except Fault (State α) :=
  runs (step A limit)

/-- All lexemes, and the end. -/
def drive (A : Arithmetic α) (limit : Option Nat) (q : State α) (input : List (Lexeme α)) :
    Except Fault α :=
  (run A limit q input).bind (finish A)

/-! ### Steps and runs -/

theorem step_operand_sign (frame : Frame α) (outer : List (Frame α)) (s : Sign) :
    step A limit (.operand frame outer) s.lexeme = frame.push limit outer s := by
  cases s <;> rfl

theorem step_operator_sign (sum : Option (α × Sign)) (x : α) (outer : List (Frame α))
    (s : Sign) :
    step A limit (.operator sum x outer) s.lexeme =
      .ok (.operand ⟨some (total A sum x, s), none, []⟩ outer) := by
  cases s <;> cases outer <;> rfl

theorem step_operator_scale (sum : Option (α × Sign)) (x : α) (outer : List (Frame α))
    (s : Scale) :
    step A limit (.operator sum x outer) s.lexeme =
      .ok (.operand ⟨sum, some (x, s), []⟩ outer) := by
  cases s <;> cases outer <;> rfl

theorem run_cons (q : State α) (l : Lexeme α) (input : List (Lexeme α)) :
    run A limit q (l :: input) = (step A limit q l).bind fun next => run A limit next input := rfl

theorem run_append (q : State α) (xs ys : List (Lexeme α)) :
    run A limit q (xs ++ ys) = (run A limit q xs).bind fun next => run A limit next ys :=
  runs_append ..

theorem drive_cons (q : State α) (l : Lexeme α) (input : List (Lexeme α)) :
    drive A limit q (l :: input) =
      (step A limit q l).bind fun next => drive A limit next input := by
  simp only [drive, run_cons]
  cases step A limit q l <;> rfl

/-! ### The machine follows the descent -/

/-- After a complete expression outside all groups, only an operator goes on. A closing parenthesis
is out of place there like any operand. -/
theorem step_operator_top {sum : Option (α × Sign)} {x : α} {l : Lexeme α}
    (noSum : A.sum? l = none) (noProduct : A.product? l = none) :
    step A limit (.operator sum x []) l = .error (.unexpectedToken l.token) := by
  cases l <;> first | rfl | (cases noSum; done) | cases noProduct

/-- In a group, only an operator or a closing parenthesis goes on. The fault names no token: it is
the parenthesis that is missing. -/
theorem step_operator_unclosed {sum : Option (α × Sign)} {x : α} {frame : Frame α}
    {outer : List (Frame α)} {l : Lexeme α} (noSum : A.sum? l = none)
    (noProduct : A.product? l = none) (unclosed : l ≠ .closing) :
    step A limit (.operator sum x (frame :: outer)) l = .error .missingClosingParen := by
  cases l <;>
    first | rfl | (cases noSum; done) | (cases noProduct; done) | exact absurd rfl unclosed

/-- A sum that no lexeme continues may be formed before the next lexeme is taken. The machine forms
it later, but nothing is done in between. -/
theorem drive_operator_of_ends {sum : Option (α × Sign)} {x : α} {outer : List (Frame α)}
    {input : List (Lexeme α)} (sums : EndsSums A input) (products : EndsProducts A input) :
    drive A limit (.operator sum x outer) input =
      drive A limit (.operator none (total A sum x) outer) input := by
  cases input with
  | nil => cases outer <;> rfl
  | cons l rest =>
      rw [drive_cons, drive_cons]
      cases outer with
      | nil =>
          rw [step_operator_top (sums l rfl) (products l rfl),
            step_operator_top (sums l rfl) (products l rfl)]
      | cons frame outer =>
          by_cases closed : l = .closing
          · rw [closed]
            rfl
          · rw [step_operator_unclosed (sums l rfl) (products l rfl) closed,
              step_operator_unclosed (sums l rfl) (products l rfl) closed]

/-- An open group that neither goes on nor is closed. It does not matter whether the tokens end
there or go on otherwise. -/
theorem drive_unclosed {sum : Option (α × Sign)} {x : α} {frame : Frame α}
    {outer : List (Frame α)} {input : List (Lexeme α)} (sums : EndsSums A input)
    (products : EndsProducts A input) (unclosed : input.head? ≠ some .closing) :
    drive A limit (.operator sum x (frame :: outer)) input = .error .missingClosingParen := by
  cases input with
  | nil => rfl
  | cons l rest =>
      have other : l ≠ .closing := fun closed => unclosed (by rw [closed]; rfl)
      rw [drive_cons, step_operator_unclosed (sums l rfl) (products l rfl) other]
      rfl

/-- The machine goes on from what a level reads: it ends with the fault of the reading, or it takes
the value and the rest. -/
def Drives (A : Arithmetic α) (limit : Option Nat) (d : Nat) (input : List (Lexeme α))
    (result : Except Fault (α × List (Lexeme α))) : Level α → Prop
  | .expression => ∀ outer : List (Frame α), nesting outer = d →
      drive A limit (.operand .empty outer) input =
        result.bind fun p => drive A limit (.operator none p.1 outer) p.2
  | .sums x => ∀ (sum : Option (α × Sign)) (y : α) (outer : List (Frame α)),
      total A sum y = x → EndsProducts A input → nesting outer = d →
      drive A limit (.operator sum y outer) input =
        result.bind fun p => drive A limit (.operator none p.1 outer) p.2
  | .term => ∀ (sum : Option (α × Sign)) (outer : List (Frame α)), nesting outer = d →
      drive A limit (.operand ⟨sum, none, []⟩ outer) input =
        result.bind fun p => drive A limit (.operator sum p.1 outer) p.2
  | .products x => ∀ (sum : Option (α × Sign)) (outer : List (Frame α)), nesting outer = d →
      drive A limit (.operator sum x outer) input =
        result.bind fun p => drive A limit (.operator sum p.1 outer) p.2
  | .factor => ∀ (frame : Frame α) (outer : List (Frame α)),
      (State.operand frame outer).depth = d →
      drive A limit (.operand frame outer) input =
        result.bind fun p => (frame.complete A outer p.1).bind fun q => drive A limit q p.2

/-- A sign that is pushed costs what a sign in front of a factor costs. -/
theorem depth_push (frame : Frame α) (outer : List (Frame α)) (s : Sign) :
    (State.operand { frame with signs := s :: frame.signs } outer).depth =
      (State.operand frame outer).depth + signDepth := by
  simp only [State.depth, List.length_cons, Nat.mul_add, Nat.mul_one, Nat.add_assoc]

/-- A frame that is left behind costs its signs and a group. -/
theorem nesting_cons (frame : Frame α) (outer : List (Frame α)) :
    nesting (frame :: outer) = (State.operand frame outer).depth + groupDepth := by
  simp only [nesting, State.depth, List.length_cons, List.map_cons, List.sum_cons]
  grind

/-- A group that is opened costs what a group costs. -/
theorem depth_open (frame : Frame α) (outer : List (Frame α)) :
    (State.operand .empty (frame :: outer)).depth =
      (State.operand frame outer).depth + groupDepth :=
  nesting_cons frame outer

/-- **The machine goes on from what is read.** Each level of the descent is a stretch of the run,
and the frames of the machine are the calls that wait for it. -/
theorem Reads.drives {level : Level α} {d : Nat} {input : List (Lexeme α)}
    {result : Except Fault (α × List (Lexeme α))} (h : Reads A limit level d input result) :
    Drives A limit d input result level := by
  -- On the rules of reading, for any frames around: a rule with two parts is two stretches of the
  -- run, one after the other.
  induction h with
  | expressionFault _ ih => exact fun outer depth => ih none outer depth
  | expression first _ ihFirst ihRest =>
      intro outer depth
      exact (ihFirst none outer depth).trans (ihRest none _ outer rfl (first.leaves rfl) depth)
  | sumsEnd ends =>
      rintro sum y outer rfl products -
      exact drive_operator_of_ends ends products
  | sumsFault _ ih =>
      rintro sum y outer rfl - depth
      rw [drive_cons, step_operator_sign]
      exact ih _ outer depth
  | sums first _ ihFirst ihRest =>
      rintro sum y outer rfl - depth
      rw [drive_cons, step_operator_sign]
      exact (ihFirst _ outer depth).trans (ihRest _ _ outer rfl (first.leaves rfl) depth)
  | termFault _ ih => exact fun sum outer depth => ih ⟨sum, none, []⟩ outer depth
  | term _ _ ihFirst ihRest =>
      intro sum outer depth
      exact (ihFirst ⟨sum, none, []⟩ outer depth).trans (ihRest sum outer depth)
  | productsEnd _ => exact fun _ _ _ => rfl
  | productsFault _ ih =>
      intro sum outer depth
      rw [drive_cons, step_operator_scale]
      exact ih ⟨sum, some _, []⟩ outer depth
  | productsZero _ zero ih =>
      intro sum outer depth
      rw [drive_cons, step_operator_scale]
      refine (ih ⟨sum, some _, []⟩ outer depth).trans ?_
      simp only [Except.bind, Frame.complete, Frame.signed, List.foldl_nil, zero, Except.map]
  | products _ combined _ ihNext ihRest =>
      intro sum outer depth
      rw [drive_cons, step_operator_scale]
      refine (ihNext ⟨sum, some _, []⟩ outer depth).trans ?_
      simp only [Except.bind, Frame.complete, Frame.signed, List.foldl_nil, combined, Except.map]
      exact ihRest sum outer depth
  | factorEnd => exact fun _ _ _ => rfl
  | signDeep deep =>
      rintro frame outer rfl
      rw [drive_cons, step_operand_sign, Frame.push, if_pos deep]
      rfl
  | signFault shallow _ ih =>
      rintro frame outer rfl
      rw [drive_cons, step_operand_sign, Frame.push, if_neg (by simp [shallow])]
      exact ih _ outer (depth_push frame outer _)
  | sign shallow _ ih =>
      rintro frame outer rfl
      rw [drive_cons, step_operand_sign, Frame.push, if_neg (by simp [shallow])]
      exact ih _ outer (depth_push frame outer _)
  | number => exact fun frame outer _ => drive_cons ..
  | groupDeep deep =>
      rintro frame outer rfl
      rw [drive_cons, step, if_pos deep]
      rfl
  | groupFault shallow _ ih =>
      rintro frame outer rfl
      rw [drive_cons, step, if_neg (by simp [shallow])]
      exact ih (frame :: outer) (nesting_cons frame outer)
  | group shallow _ ih =>
      rintro frame outer rfl
      rw [drive_cons, step, if_neg (by simp [shallow])]
      exact (ih (frame :: outer) (nesting_cons frame outer)).trans (drive_cons ..)
  | @groupOpen d input x rest shallow inner isOpen ih =>
      rintro frame outer rfl
      rw [drive_cons, step, if_neg (by simp [shallow])]
      refine (ih (frame :: outer) (nesting_cons frame outer)).trans ?_
      exact drive_unclosed (inner.leaves rfl).1 (inner.leaves rfl).2 isOpen
  | @other d l input none =>
      intro frame outer _
      rw [drive_cons]
      cases l <;> first | exact none.elim | rfl

/-- **Evaluation is a run of the machine.** The recursion is gone in it: what holds of every step
holds of every evaluation. -/
theorem evaluateLexemes_eq_drive (input : List (Lexeme α)) :
    evaluateLexemes A limit input = drive A limit .start input := by
  have reading := reads_read A limit .expression 0 input
  rw [evaluateLexemes_eq, State.start, reading.drives [] rfl]
  rcases found : read A limit .expression 0 input with fault | ⟨x, _ | ⟨l, rest⟩⟩
  · rfl
  · rfl
  · obtain ⟨sums, products⟩ := reading.leaves found
    simp only [Except.bind, drive_cons, step_operator_top (sums l rfl) (products l rfl)]

/-- Tokens are evaluated by a run of the machine over their meanings. From here on the descent does
not matter: the machine has no calls in calls, and can be stopped anywhere. -/
theorem evaluate_eq_drive {tokens : List String} (h : tokens ≠ []) :
    evaluate A limit tokens = drive A limit .start (lexemes A tokens) :=
  (evaluate_eq_of_ne_nil h).trans (evaluateLexemes_eq_drive _)

end Abacus.Expression
