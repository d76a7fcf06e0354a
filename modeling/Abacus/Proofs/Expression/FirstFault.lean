import Abacus.Proofs.Expression.Scanner

/-!
# Which fault comes first

A list of tokens may break several rules at once. The scanner says which stray token or open group
is reported, except that a zero divisor or a nesting beyond the limit is reported instead when it
comes earlier. Both are properties of a prefix: a divisor that is zero has just been read in full,
or a sign or a parenthesis has just gone beyond the limit.

## Main definitions

* `DividesByZero` — the tokens end with a complete factor that is zero and divides.
* `NestsTooDeep` — the tokens end beyond the limit, where an operand is expected.
* `Mishap`, `FirstMishap` — either of these, and the first prefix that has one.

## Main statements

* `Reads.dividesByZero` — a reading that meets a zero divisor has read one in full.
* `not_mishap_of_run` — what the machine takes has no mishap.
* `exists_firstMishap_iff` — there is a first mishap where there is any.
* `evaluate_follows_scan` — evaluation ends with the first mishap, else as the scanner does.
-/

namespace Abacus.Expression

variable {α : Type} {A : Arithmetic α} {limit : Option Nat}

/-! ### Mishaps -/

/-- From a place of a scan, the tokens lead through an operator `/` to the end of a factor whose
value is zero. -/
def DividesByZero (A : Arithmetic α) (o : Outline) (tokens : List String) : Prop :=
  ∃ (before : List String) (f : Factor) (x : α) (d : Nat),
    tokens = before ++ "/" :: f.yield ∧ Outline.run A o before = .ok ⟨.operator, d⟩ ∧
    f.Legible A ∧ f.value A = .ok x ∧ A.isZero x = true

/-- The tokens lead beyond the limit, and an operand is to come next. Only signs and opening
parentheses lead deeper, so the shortest tokens of this kind end in one of these. -/
def NestsTooDeep (A : Arithmetic α) (limit : Option Nat) (tokens : List String) : Prop :=
  ∃ p : Point, Point.run A .start tokens = .ok p ∧ p.outline.mode = .operand ∧
    exceeds limit p.depth = true

/-- What may go wrong at the end of tokens that a scan accepts so far. A scan sees neither, since it
does not compute and has no limit. -/
inductive Mishap (A : Arithmetic α) (limit : Option Nat) (tokens : List String) : Fault → Prop
  | divisionByZero : DividesByZero A .start tokens → Mishap A limit tokens .divisionByZero
  | tooDeep : NestsTooDeep A limit tokens → Mishap A limit tokens .tooDeep

/-- The first mishap: a prefix of the tokens has it, and no shorter prefix has any. If there is one,
the tokens behind the prefix do not matter. -/
def FirstMishap (A : Arithmetic α) (limit : Option Nat) (tokens : List String) (fault : Fault) :
    Prop :=
  ∃ before, before <+: tokens ∧ Mishap A limit before fault ∧
    ∀ shorter, shorter <+: before → shorter ≠ before → ∀ other, ¬ Mishap A limit shorter other

/-- A zero divisor stays one behind further tokens. It is a matter of the last operand only. -/
theorem DividesByZero.append {o o' : Outline} {xs ys : List String}
    (first : Outline.run A o xs = .ok o') (h : DividesByZero A o' ys) :
    DividesByZero A o (xs ++ ys) := by
  obtain ⟨before, f, x, d, rfl, reached, rest⟩ := h
  refine ⟨xs ++ before, f, x, d, (List.append_assoc ..).symm, ?_, rest⟩
  rw [Outline.run_append, first]
  exact reached

/-- A zero divisor stays one behind a further token. -/
theorem DividesByZero.cons {o o' : Outline} {t : String} {tokens : List String}
    (first : o.step A t = .ok o') (h : DividesByZero A o' tokens) :
    DividesByZero A o (t :: tokens) := by
  have reached : Outline.run A o [t] = .ok o' := by
    rw [Outline.run_cons, first]
    rfl
  exact h.append reached

/-- A scan ends after an operand where a divisor ends. This is what tells it from nesting that is
too deep, which ends before an operand. -/
theorem DividesByZero.outline_run {o : Outline} {tokens : List String}
    (h : DividesByZero A o tokens) : ∃ d, Outline.run A o tokens = .ok ⟨.operator, d⟩ := by
  obtain ⟨before, f, x, d, rfl, reached, legible, -⟩ := h
  refine ⟨d, ?_⟩
  rw [Outline.run_append, reached, Except.bind, Outline.run_cons]
  exact f.outline_run legible d

/-- A scan goes on to the end of a mishap, and the mode there tells which mishap it is. -/
theorem Mishap.outline_run {tokens : List String} {fault : Fault}
    (h : Mishap A limit tokens fault) :
    ∃ o, Outline.run A .start tokens = .ok o ∧
      fault = match o.mode with | .operand => .tooDeep | .operator => .divisionByZero := by
  cases h with
  | divisionByZero h =>
      obtain ⟨d, reached⟩ := h.outline_run
      exact ⟨_, reached, rfl⟩
  | tooDeep h =>
      obtain ⟨p, reached, mode, -⟩ := h
      exact ⟨p.outline, Point.outline_run_of_eq_ok reached, by rw [mode]⟩

/-- Tokens end with one mishap at most. The mode in which a scan ends decides which one it may
be. -/
theorem Mishap.unique {tokens : List String} {fault fault' : Fault}
    (h : Mishap A limit tokens fault) (h' : Mishap A limit tokens fault') : fault = fault' := by
  obtain ⟨o, reached, rfl⟩ := h.outline_run
  obtain ⟨o', reached', rfl⟩ := h'.outline_run
  rw [reached] at reached'
  rw [Except.ok.inj reached']

/-! ### Zero divisors are read in full -/

/-- **A reading that meets a zero divisor has read it in full.** Whatever groups are open, a scan of
the tokens from the mode of the level leads to the divisor. -/
theorem Reads.dividesByZero {level : Level α} {d : Nat} {input : List (Lexeme α)}
    {result : Except Fault (α × List (Lexeme α))} (h : Reads A limit level d input result)
    (shallow : exceeds limit d = false) {tokens : List String} (given : input = lexemes A tokens)
    (zero : result = .error .divisionByZero) (k : Nat) :
    ∃ used after, tokens = used ++ after ∧ DividesByZero A ⟨level.mode, k⟩ used := by
  -- On the rules of reading. Where the zero divisor is in the second part of a rule, the first part
  -- was read in full and the scan goes over it.
  induction h generalizing tokens k with
  | sumsEnd | productsEnd | factorEnd | signDeep | sign | number | groupDeep | group | groupOpen
  | other => cases zero
  | expressionFault _ ih => exact ih shallow given zero k
  | expression first _ _ ih =>
      obtain ⟨used, middle, rfl, rfl, spelled⟩ := first.exists_spells shallow given rfl
      obtain ⟨more, after, rfl, divides⟩ := ih shallow rfl zero k
      exact ⟨used ++ more, after, (List.append_assoc ..).symm,
        divides.append (spelled.outline_run k)⟩
  | @sumsFault d x s input fault _ ih =>
      obtain ⟨operand, rfl, rest, -⟩ := eq_cons_of_lexemes_eq given
      obtain ⟨more, after, rfl, divides⟩ := ih shallow rest zero k
      exact ⟨s.token :: more, after, by simp, divides.cons (Outline.step_operator_sign k s)⟩
  | @sums d x s input y rest result first _ _ ih =>
      obtain ⟨operand, rfl, given, -⟩ := eq_cons_of_lexemes_eq given
      obtain ⟨used, middle, rfl, rfl, spelled⟩ := first.exists_spells shallow given rfl
      obtain ⟨more, after, rfl, divides⟩ := ih shallow rfl zero k
      refine ⟨(s.token :: used) ++ more, after, by simp, divides.append ?_⟩
      rw [Outline.run_cons, Level.mode, Outline.step_operator_sign]
      exact spelled.outline_run k
  | termFault _ ih => exact ih shallow given zero k
  | term first _ _ ih =>
      obtain ⟨used, middle, rfl, rfl, spelled⟩ := first.exists_spells shallow given rfl
      obtain ⟨more, after, rfl, divides⟩ := ih shallow rfl zero k
      exact ⟨used ++ more, after, (List.append_assoc ..).symm,
        divides.append (spelled.outline_run k)⟩
  | @productsFault d x s input fault _ ih =>
      obtain ⟨operand, rfl, rest, -⟩ := eq_cons_of_lexemes_eq given
      obtain ⟨more, after, rfl, divides⟩ := ih shallow rest zero k
      exact ⟨s.token :: more, after, by simp, divides.cons (Outline.step_operator_scale k s)⟩
  | @productsZero d x s input y rest fault first combined _ =>
      obtain ⟨operand, rfl, given, -⟩ := eq_cons_of_lexemes_eq given
      obtain ⟨used, after, rfl, rfl, f, rfl, legible, value, -⟩ :=
        first.exists_spells shallow given rfl
      obtain ⟨rfl, isZero, -⟩ := Scale.combine_eq_error_iff.1 combined
      exact ⟨"/" :: f.yield, after, by simp [Scale.token],
        [], f, y, k, rfl, rfl, legible, value, isZero⟩
  | @products d x s input y z rest result first _ _ _ ih =>
      obtain ⟨operand, rfl, given, -⟩ := eq_cons_of_lexemes_eq given
      obtain ⟨used, middle, rfl, rfl, spelled⟩ := first.exists_spells shallow given rfl
      obtain ⟨more, after, rfl, divides⟩ := ih shallow rfl zero k
      refine ⟨(s.token :: used) ++ more, after, by simp, divides.append ?_⟩
      rw [Outline.run_cons, Level.mode, Outline.step_operator_scale]
      exact spelled.outline_run k
  | @signFault d s input fault within _ ih =>
      obtain ⟨operand, rfl, rest, -⟩ := eq_cons_of_lexemes_eq given
      obtain ⟨more, after, rfl, divides⟩ := ih within rest zero k
      exact ⟨s.token :: more, after, by simp, divides.cons (Outline.step_operand_sign k s)⟩
  | groupFault within _ ih =>
      obtain ⟨inner, rfl, rest, -⟩ := eq_cons_of_lexemes_eq given
      obtain ⟨more, after, rfl, divides⟩ := ih within rest zero (k + 1)
      exact ⟨"(" :: more, after, by simp [Lexeme.token],
        divides.cons (Outline.step_operand_opening k)⟩

/-! ### The machine and mishaps -/

/-- What a step does within a limit, it does without one. A limit only takes steps away. -/
theorem step_none {q next : State α} {l : Lexeme α} (h : step A limit q l = .ok next) :
    step A none q l = .ok next := by
  cases q with
  | operand frame outer =>
      cases l with
      | plus | minus =>
          simp only [step, Frame.push] at h
          split at h
          · cases h
          · exact h
      | opening =>
          rw [step] at h
          split at h
          · cases h
          · exact h
      | _ => exact h
  | operator sum x outer => cases outer <;> cases l <;> exact h

/-- What a run does within a limit, it does without one. -/
theorem run_none {q next : State α} {input : List (Lexeme α)}
    (h : run A limit q input = .ok next) : run A none q input = .ok next := by
  induction input generalizing q with
  | nil => exact h
  | cons l input ih =>
      obtain ⟨middle, stepped, h⟩ := runs_cons_eq_ok.1 h
      exact runs_cons_eq_ok.2 ⟨middle, step_none stepped, ih h⟩

/-- The end of the tokens is never a zero divisor. Sums that wait are added up there, and quotients
are made before. -/
theorem finish_ne_divisionByZero (q : State α) : finish A q ≠ .error .divisionByZero := by
  cases q with
  | operand frame outer => simp [finish]
  | operator sum x outer => cases outer <;> simp [finish]

/-- The machine does not get past a zero divisor. The factor may be a group with much inside; the
division is made when it is closed. -/
theorem run_divisor_ne_ok {sum : Option (α × Sign)} {y : α} {outer : List (Frame α)} {f : Factor}
    {x : α} (value : f.value A = .ok x) (zero : A.isZero x = true) (q : State α) :
    run A limit (.operand ⟨sum, some (y, .divide), []⟩ outer) (lexemes A f.yield) ≠ .ok q := by
  intro reached
  have reading : Reads A none .factor (nesting outer) (lexemes A f.yield ++ []) (.ok (x, [])) :=
    f.reads value rfl
  have driven := reading.drives ⟨sum, some (y, .divide), []⟩ outer rfl
  rw [List.append_nil, drive, run_none reached] at driven
  refine finish_ne_divisionByZero q (driven.trans ?_)
  simp only [Except.bind, Frame.complete, Frame.signed, List.foldl_nil,
    Scale.combine_eq_error_iff.2 ⟨rfl, zero, rfl⟩, Except.map]

/-- **What the machine takes has no mishap.** A zero divisor would have ended the run when it was
complete, and a level too many when it was entered. -/
theorem not_mishap_of_run {tokens : List String} {q : State α}
    (h : run A limit .start (lexemes A tokens) = .ok q) (fault : Fault) :
    ¬ Mishap A limit tokens fault := by
  intro mishap
  cases mishap with
  | tooDeep deep =>
      obtain ⟨p, reached, -, exceeded⟩ := deep
      obtain ⟨walked, within⟩ := point_run h (exceeds_zero limit)
      have same : q.point = p := Except.ok.inj (walked.symm.trans reached)
      rw [← same, State.depth_point, within] at exceeded
      cases exceeded
  | divisionByZero divides =>
      obtain ⟨before, f, x, d, rfl, reached, -, value, zero⟩ := divides
      rw [lexemes_append] at h
      obtain ⟨middle, arrived, h⟩ := runs_append_eq_ok.1 h
      obtain ⟨next, stepped, h⟩ := runs_cons_eq_ok.1 h
      have place := Point.outline_run_of_eq_ok (point_run arrived (exceeds_zero limit)).1
      have here : middle.point.outline = ⟨.operator, d⟩ :=
        Except.ok.inj (place.symm.trans reached)
      cases middle with
      | operand frame outer => cases here
      | operator sum y outer =>
          have divides : Lexeme.ofToken A "/" = Scale.divide.lexeme :=
            Scale.ofToken_token A .divide
          rw [divides, step_operator_scale] at stepped
          cases stepped
          exact run_divisor_ne_ok value zero q h

/-- A run over tokens that fails has taken some of them and fails at the next one. -/
theorem exists_step_eq_error_of_run {q : State α} {tokens : List String} {fault : Fault}
    (h : run A limit q (lexemes A tokens) = .error fault) :
    ∃ before t after middle, tokens = before ++ t :: after ∧
      run A limit q (lexemes A before) = .ok middle ∧
      step A limit middle (Lexeme.ofToken A t) = .error fault := by
  obtain ⟨taken, l, left, middle, split, reached, failed⟩ := exists_of_runs_eq_error h
  obtain ⟨before, others, rfl, rfl, rest⟩ := List.map_eq_append_iff.1 split
  obtain ⟨t, after, rfl, rfl, rfl⟩ := List.map_eq_cons_iff.1 rest
  exact ⟨before, t, after, middle, rfl, reached, failed⟩

/-- What the machine takes, it takes from any shorter prefix on. It takes one lexeme after the other
and never goes back. -/
theorem exists_run_of_prefix {q next : State α} {shorter tokens : List String}
    (initial : shorter <+: tokens) (h : run A limit q (lexemes A tokens) = .ok next) :
    ∃ middle, run A limit q (lexemes A shorter) = .ok middle := by
  obtain ⟨rest, rfl⟩ := initial
  rw [lexemes_append] at h
  obtain ⟨middle, reached, -⟩ := runs_append_eq_ok.1 h
  exact ⟨middle, reached⟩

/-- A zero divisor is met while the expression is read. -/
theorem read_eq_divisionByZero {input : List (Lexeme α)}
    (h : evaluateLexemes A limit input = .error .divisionByZero) :
    read A limit .expression 0 input = .error .divisionByZero := by
  rw [evaluateLexemes_eq] at h
  rcases found : read A limit .expression 0 input with fault | ⟨x, _ | ⟨l, rest⟩⟩
  · simpa [found] using h
  · simp [found] at h
  · simp [found] at h

/-- A step that meets a zero divisor takes the last token of one. The divisor is found in the tokens
before by what the frames have read of them. -/
theorem dividesByZero_of_step {before : List String} {t : String} {q : State α}
    (h : run A limit .start (lexemes A before) = .ok q)
    (failed : step A limit q (Lexeme.ofToken A t) = .error .divisionByZero) :
    DividesByZero A .start (before ++ [t]) := by
  have driven : drive A limit .start (lexemes A (before ++ [t])) = .error .divisionByZero := by
    rw [drive, lexemes_append, run_append, h, Except.bind, lexemes_cons, run_cons, failed]
    rfl
  have zero := read_eq_divisionByZero ((evaluateLexemes_eq_drive _).trans driven)
  obtain ⟨used, after, split, divides⟩ :=
    (reads_iff.2 zero).dividesByZero (exceeds_zero limit) rfl rfl 0
  -- A divisor that ends sooner would have stopped the machine within `before`.
  cases List.eq_nil_or_concat after with
  | inl done =>
      rw [done, List.append_nil] at split
      exact split ▸ divides
  | inr longer =>
      obtain ⟨rest, last, rfl⟩ := longer
      rw [List.concat_eq_append, ← List.append_assoc] at split
      obtain ⟨split, -⟩ := List.append_inj' split rfl
      obtain ⟨middle, taken⟩ := exists_run_of_prefix ⟨rest, split.symm⟩ h
      exact absurd (.divisionByZero divides) (not_mishap_of_run taken .divisionByZero)

/-- **A step fails with the first mishap or as the scanner does.** These exclude one another, so the
fault says which of the two it was. -/
theorem step_eq_error_mishap {before : List String} {t : String} {q : State α} {fault : Fault}
    (h : run A limit .start (lexemes A before) = .ok q)
    (failed : step A limit q (Lexeme.ofToken A t) = .error fault) :
    Mishap A limit (before ++ [t]) fault ∨
    Outline.run A .start (before ++ [t]) = .error fault := by
  obtain ⟨walked, -⟩ := point_run h (exceeds_zero limit)
  rcases step_eq_error_cases failed with rfl | ⟨rfl, p, stepped, mode, deep⟩ | stopped
  · exact .inl (.divisionByZero (dividesByZero_of_step h failed))
  · refine .inl (.tooDeep ⟨p, ?_, mode, deep⟩)
    rw [Point.run_append, show Point.start = (State.start (α := α)).point from rfl, walked]
    rw [Except.bind, Point.run_cons, stepped]
    rfl
  · refine .inr ?_
    have place := Point.outline_run_of_eq_ok walked
    rw [Outline.run_append, show Outline.start = (State.start (α := α)).point.outline from rfl,
      place, Except.bind, Outline.run_cons, stopped]
    rfl

/-! ### Which fault is reported -/

/-- There is a first mishap where there is any. Prefixes are ordered by their length, so one of them
is shortest. -/
theorem exists_firstMishap_iff {tokens : List String} :
    (∃ fault, FirstMishap A limit tokens fault) ↔
      ∃ before fault, before <+: tokens ∧ Mishap A limit before fault := by
  constructor
  · rintro ⟨fault, before, initial, mishap, -⟩
    exact ⟨before, fault, initial, mishap⟩
  · rintro ⟨before, fault, initial, mishap⟩
    -- By induction on the length of the prefix: a shorter one that has a mishap takes its place.
    induction size : before.length using Nat.strongRecOn generalizing before fault with
    | ind n ih =>
        by_cases least : ∀ shorter, shorter <+: before → shorter ≠ before →
            ∀ other, ¬ Mishap A limit shorter other
        · exact ⟨fault, before, initial, mishap, least⟩
        · simp only [Classical.not_forall, Classical.not_not] at least
          obtain ⟨shorter, within, proper, other, earlier⟩ := least
          have smaller : shorter.length < n := by
            have := within.length_le
            have := mt within.eq_of_length proper
            omega
          exact ih _ smaller shorter other (within.trans initial) earlier rfl

/-- There is no mishap, or the first one is of one of the two kinds. -/
theorem firstMishap_cases (A : Arithmetic α) (limit : Option Nat) (tokens : List String) :
    (∀ mishap, ¬ FirstMishap A limit tokens mishap) ∨
    FirstMishap A limit tokens .divisionByZero ∨ FirstMishap A limit tokens .tooDeep := by
  by_cases met : ∃ mishap, FirstMishap A limit tokens mishap
  · obtain ⟨mishap, before, initial, divides | deep, least⟩ := met
    · exact .inr (.inl ⟨before, initial, .divisionByZero divides, least⟩)
    · exact .inr (.inr ⟨before, initial, .tooDeep deep, least⟩)
  · exact .inl (not_exists.1 met)

/-- A mishap at the token after those that the machine takes is the first one. Any earlier one would
have stopped the machine. -/
theorem firstMishap_of_run {tokens before : List String} {t : String} {q : State α} {fault : Fault}
    (h : run A limit .start (lexemes A before) = .ok q) (initial : before ++ [t] <+: tokens)
    (mishap : Mishap A limit (before ++ [t]) fault) : FirstMishap A limit tokens fault := by
  refine ⟨before ++ [t], initial, mishap, fun shorter within proper => ?_⟩
  rcases List.prefix_concat_iff.1 within with whole | within
  · exact absurd whole proper
  · obtain ⟨middle, taken⟩ := exists_run_of_prefix within h
    exact not_mishap_of_run taken

/-- The end of the tokens is for the machine what it is for the scanner. Only there does it matter
how many groups are open. -/
theorem finish_point (q : State α) :
    match q.point.outline.finish with
    | .ok () => ∃ v, finish A q = .ok v
    | .error fault => finish A q = .error fault := by
  cases q with
  | operand frame outer => rfl
  | operator sum x outer =>
      cases outer with
      | nil => exact ⟨_, rfl⟩
      | cons frame rest => rfl

/-- The first mishap is the fault of the machine. It takes all tokens before, and the limit and the
arithmetic stop it there, not the grammar. -/
theorem drive_of_firstMishap {tokens : List String} {fault : Fault}
    (h : FirstMishap A limit tokens fault) :
    drive A limit .start (lexemes A tokens) = .error fault := by
  obtain ⟨before, ⟨rest, rfl⟩, mishap, least⟩ := h
  rw [drive, lexemes_append, run_append]
  cases ran : run A limit .start (lexemes A before) with
  | ok q => exact absurd mishap (not_mishap_of_run ran fault)
  | error fault' =>
      obtain ⟨earlier, t, after, q, rfl, reached, failed⟩ := exists_step_eq_error_of_run ran
      have split : earlier ++ t :: after = (earlier ++ [t]) ++ after := by simp
      have same : fault' = fault := by
        rcases step_eq_error_mishap reached failed with here | stopped
        · by_cases whole : earlier ++ [t] = earlier ++ t :: after
          · exact here.unique (whole ▸ mishap)
          · exact absurd here (least _ ⟨after, split.symm⟩ whole fault')
        · obtain ⟨o, walked, -⟩ := mishap.outline_run
          rw [split, Outline.run_append, stopped] at walked
          cases walked
      rw [same]
      rfl

/-- Without a mishap the machine ends as the scanner does. -/
theorem drive_of_no_mishap {tokens : List String}
    (h : ∀ mishap, ¬ FirstMishap A limit tokens mishap) :
    match Outline.scan A tokens with
    | .ok () => ∃ v, drive A limit .start (lexemes A tokens) = .ok v
    | .error fault => drive A limit .start (lexemes A tokens) = .error fault := by
  rw [drive]
  cases ran : run A limit .start (lexemes A tokens) with
  | ok q =>
      have walked : Outline.run A .start tokens = .ok q.point.outline :=
        Point.outline_run_of_eq_ok (point_run ran (exceeds_zero limit)).1
      rw [Outline.scan, walked]
      exact finish_point q
  | error fault =>
      obtain ⟨before, t, after, q, rfl, reached, failed⟩ := exists_step_eq_error_of_run ran
      have split : before ++ t :: after = (before ++ [t]) ++ after := by simp
      rcases step_eq_error_mishap reached failed with mishap | stopped
      · exact absurd (firstMishap_of_run reached ⟨after, split.symm⟩ mishap) (h fault)
      · rw [Outline.scan, split, Outline.run_append, stopped]
        rfl

/-- **Evaluation follows the scanner.** The first mishap is reported, before anything that follows
it is looked at. Without a mishap, what the scanner accepts has a value, and otherwise the fault is
that of the scanner, with its token. In particular, nothing but a zero divisor or the nesting is
held against tokens that the scanner accepts, and where it stops, only these can come first. -/
theorem evaluate_follows_scan (A : Arithmetic α) (limit : Option Nat) (tokens : List String)
    (nonempty : tokens ≠ []) :
    (∀ mishap, FirstMishap A limit tokens mishap → evaluate A limit tokens = .error mishap) ∧
    ((∀ mishap, ¬ FirstMishap A limit tokens mishap) →
      match Outline.scan A tokens with
      | .ok () => ∃ v, evaluate A limit tokens = .ok v
      | .error fault => evaluate A limit tokens = .error fault) ∧
    (Outline.scan A tokens = .ok () →
      (∃ v, evaluate A limit tokens = .ok v) ∨
      evaluate A limit tokens = .error .divisionByZero ∨
      evaluate A limit tokens = .error .tooDeep) ∧
    ∀ fault, Outline.scan A tokens = .error fault →
      evaluate A limit tokens = .error fault ∨
      (FirstMishap A limit tokens .divisionByZero ∧
        evaluate A limit tokens = .error .divisionByZero) ∨
      (FirstMishap A limit tokens .tooDeep ∧ evaluate A limit tokens = .error .tooDeep) := by
  have driven : evaluate A limit tokens = drive A limit .start (lexemes A tokens) :=
    (evaluate_eq_of_ne_nil nonempty).trans (evaluateLexemes_eq_drive _)
  rw [driven]
  refine ⟨fun mishap => drive_of_firstMishap, drive_of_no_mishap, ?_, ?_⟩
  · intro accepted
    rcases firstMishap_cases A limit tokens with unharmed | zero | deep
    · have ended := drive_of_no_mishap unharmed
      rw [accepted] at ended
      exact .inl ended
    · exact .inr (.inl (drive_of_firstMishap zero))
    · exact .inr (.inr (drive_of_firstMishap deep))
  · intro fault stopped
    rcases firstMishap_cases A limit tokens with unharmed | zero | deep
    · have ended := drive_of_no_mishap unharmed
      rw [stopped] at ended
      exact .inl ended
    · exact .inr (.inl ⟨zero, drive_of_firstMishap zero⟩)
    · exact .inr (.inr ⟨deep, drive_of_firstMishap deep⟩)

/-- A zero divisor is reported although a stray parenthesis follows it, where the scanner stops. -/
theorem evaluate_divisor_before_stray :
    Outline.scan Calculator.arithmetic ["1", "/", "0", ")"] = .error (.unexpectedToken ")") ∧
    FirstMishap Calculator.arithmetic (some Calculator.depthLimit) ["1", "/", "0", ")"]
      .divisionByZero ∧
    evaluate Calculator.arithmetic (some Calculator.depthLimit) ["1", "/", "0", ")"] =
      .error .divisionByZero := by
  obtain ⟨one, readsOne⟩ : ∃ x, Calculator.arithmetic.numeral? "1" = some x :=
    Option.isSome_iff_exists.1 (by decide +kernel)
  obtain ⟨zero, readsZero, isZero⟩ :
      ∃ x, Calculator.arithmetic.numeral? "0" = some x ∧ Calculator.arithmetic.isZero x = true := by
    have read : (Calculator.arithmetic.numeral? "0").any Calculator.arithmetic.isZero = true := by
      decide
    simpa [Option.any_eq_true] using read
  have stopped : Outline.scan Calculator.arithmetic ["1", "/", "0", ")"] =
      .error (.unexpectedToken ")") := by
    simp [Outline.scan, Outline.start, Outline.run_cons, Outline.step, readsOne, readsZero,
      Except.bind]
  have taken : run Calculator.arithmetic (some Calculator.depthLimit) .start
      (lexemes Calculator.arithmetic ["1", "/"]) =
      .ok (.operand ⟨none, some (one, .divide), []⟩ []) := by
    rw [lexemes_cons, Lexeme.ofToken_of_numeral? readsOne]
    rfl
  have scanned : Outline.run Calculator.arithmetic .start ["1"] = .ok ⟨.operator, 0⟩ := by
    rw [Outline.run_cons, Outline.start, Outline.step_operand_numeral (by rw [readsOne]; rfl)]
    rfl
  have divides : DividesByZero Calculator.arithmetic .start ["1", "/", "0"] :=
    ⟨["1"], .numeral "0", zero, 0, rfl, scanned, by rw [Factor.Legible, readsZero]; rfl,
      by simp only [Factor.value, readsZero], isZero⟩
  have first : FirstMishap Calculator.arithmetic (some Calculator.depthLimit)
      ["1", "/", "0", ")"] .divisionByZero :=
    firstMishap_of_run taken ⟨[")"], rfl⟩ (.divisionByZero divides)
  exact ⟨stopped, first, (evaluate_follows_scan Calculator.arithmetic
    (some Calculator.depthLimit) ["1", "/", "0", ")"] (by decide)).1 _ first⟩

end Abacus.Expression
