import Abacus.Proofs.Expression.FirstFault

/-!
# Evaluation within a limit

A limit on the nesting does one thing: it stops an evaluation at the first point that is nested
beyond it. Until then the evaluation goes on as it does without a limit. So the limit is noticed if
and only if such a point is reached before any other fault, and otherwise the outcome is the one
without a limit. What counts is the depth of single points: chains and groups side by side cost
nothing, however long they are.

## Main definitions

* `Reaches` — evaluation gets to a point, if only the nesting is in its way.
* `ReachesBeyond` — it gets to a point that is nested beyond a limit.

## Main statements

* `reaches_iff` — the points reached are those of the machine without a limit.
* `run_eq_none_or` — a limited run is the unlimited one, unless it stops beyond the limit.
* `evaluate_within_limit` — what a limit does to an evaluation.
-/

namespace Abacus.Expression

variable {α : Type} {A : Arithmetic α} {limit : Option Nat} {most : Nat}

/-! ### Points that are reached -/

/-- Evaluation of the tokens gets to a point at their end, if only the nesting is in its way: a scan
takes them all, and no divisor that is complete is zero. -/
def Reaches (A : Arithmetic α) (tokens : List String) (p : Point) : Prop :=
  Point.run A .start tokens = .ok p ∧
    ∀ before, before <+: tokens → ¬ DividesByZero A .start before

/-- On its way through the tokens, evaluation gets to a point that is nested beyond a limit.
Evaluation without a limit is meant, which goes on until it fails; so what is behind a fault does
not count, however deep it is. -/
def ReachesBeyond (A : Arithmetic α) (most : Nat) (tokens : List String) : Prop :=
  ∃ before p, before <+: tokens ∧ Reaches A before p ∧ most < p.depth

/-- What is beyond a limit is beyond any lower one. -/
theorem ReachesBeyond.of_le {least : Nat} {tokens : List String}
    (h : ReachesBeyond A most tokens) (le : least ≤ most) : ReachesBeyond A least tokens := by
  obtain ⟨before, p, initial, reaches, beyond⟩ := h
  exact ⟨before, p, initial, reaches, Nat.lt_of_le_of_lt le beyond⟩

/-- **The points reached are those of the machine without a limit.** So whether a limit is exceeded
is a question about one run, the same for all limits. -/
theorem reaches_iff {tokens : List String} {p : Point} :
    Reaches A tokens p ↔ ∃ q, run A none .start (lexemes A tokens) = .ok q ∧ q.point = p := by
  constructor
  · rintro ⟨walked, unharmed⟩
    cases ran : run A none .start (lexemes A tokens) with
    | ok q =>
        have here : Point.run A .start tokens = .ok q.point :=
          (point_run ran (exceeds_zero none)).1
        exact ⟨q, rfl, Except.ok.inj (here.symm.trans walked)⟩
    | error fault =>
        -- The machine could only stop at a zero divisor or where the scan stops.
        obtain ⟨before, t, after, q, rfl, reached, failed⟩ := exists_step_eq_error_of_run ran
        have split : before ++ t :: after = (before ++ [t]) ++ after := by simp
        rcases step_eq_error_cases failed with rfl | ⟨-, _, -, -, deep⟩ | stopped
        · exact absurd (dividesByZero_of_step reached failed) (unharmed _ ⟨after, split.symm⟩)
        · cases deep
        · have scanned : Outline.run A .start (before ++ t :: after) = .ok p.outline :=
            Point.outline_run_of_eq_ok walked
          rw [outline_run_of_stop reached stopped after] at scanned
          cases scanned
  · rintro ⟨q, ran, rfl⟩
    refine ⟨(point_run ran (exceeds_zero none)).1, fun before initial divides => ?_⟩
    obtain ⟨middle, taken⟩ := exists_run_of_prefix initial ran
    exact not_mishap_of_run taken .divisionByZero (.divisionByZero divides)

/-! ### Limited and unlimited steps -/

/-- A move of the machine that is made unless it leads beyond the limit. Signs and opening
parentheses move like this, and nothing else looks at the limit. -/
def enter (limit : Option Nat) (next : State α) : Except Fault (State α) :=
  if exceeds limit next.depth then .error .tooDeep else .ok next

theorem step_operand_sign_eq_enter (frame : Frame α) (outer : List (Frame α)) (s : Sign) :
    step A limit (.operand frame outer) s.lexeme =
      enter limit (.operand { frame with signs := s :: frame.signs } outer) := by
  rw [step_operand_sign, Frame.push, enter, depth_push]

theorem step_operand_opening_eq_enter (frame : Frame α) (outer : List (Frame α)) :
    step A limit (.operand frame outer) .opening =
      enter limit (.operand .empty (frame :: outer)) := by
  rw [step, enter, depth_open]

/-- A limited move is the unlimited one, unless it leads beyond the limit. The one move that is
refused is named, with the depth that it would have led to. -/
theorem enter_eq_none_or (most : Nat) (next : State α) :
    enter (some most) next = enter none next ∨
    (enter (some most) next = .error .tooDeep ∧ enter none next = .ok next ∧
      most < next.depth) := by
  by_cases beyond : most < next.depth
  · exact .inr ⟨if_pos (by simpa [exceeds] using beyond), rfl, beyond⟩
  · refine .inl ?_
    rw [enter, if_neg (by simpa [exceeds] using beyond)]
    rfl

/-- **A limited step is the unlimited one,** unless that leads beyond the limit. Only two tokens
can: a sign and an opening parenthesis, where an operand is due. -/
theorem step_eq_none_or (A : Arithmetic α) (most : Nat) (q : State α) (l : Lexeme α) :
    step A (some most) q l = step A none q l ∨
    (step A (some most) q l = .error .tooDeep ∧
      ∃ next, step A none q l = .ok next ∧ most < next.depth) := by
  have guarded (next : State α) (h : ∀ limit, step A limit q l = enter limit next) :
      step A (some most) q l = step A none q l ∨
      (step A (some most) q l = .error .tooDeep ∧
        ∃ next, step A none q l = .ok next ∧ most < next.depth) := by
    rw [h, h]
    exact (enter_eq_none_or most next).imp_right fun ⟨stops, moves, beyond⟩ =>
      ⟨stops, next, moves, beyond⟩
  cases q with
  | operand frame outer =>
      cases l with
      | plus => exact guarded _ fun limit => step_operand_sign_eq_enter frame outer .plus
      | minus => exact guarded _ fun limit => step_operand_sign_eq_enter frame outer .minus
      | opening => exact guarded _ fun limit => step_operand_opening_eq_enter frame outer
      | times | divide | closing | number | word => exact .inl rfl
  | operator sum x outer => cases outer <;> cases l <;> exact .inl rfl

/-- **A limited run is the unlimited one,** unless that gets beyond the limit on its way. Before
that point, the two take the same steps. -/
theorem run_eq_none_or (A : Arithmetic α) (most : Nat) (q : State α) (input : List (Lexeme α)) :
    run A (some most) q input = run A none q input ∨
    (run A (some most) q input = .error .tooDeep ∧
      ∃ before after next, input = before ++ after ∧ run A none q before = .ok next ∧
        most < next.depth) := by
  induction input generalizing q with
  | nil => exact .inl rfl
  | cons l input ih =>
      rw [run_cons, run_cons]
      rcases step_eq_none_or A most q l with same | ⟨stops, next, stepped, beyond⟩
      · rw [same]
        cases stepped : step A none q l with
        | error fault => exact .inl rfl
        | ok next =>
            refine (ih next).imp_right ?_
            rintro ⟨stops, before, after, last, rfl, reached, beyond⟩
            exact ⟨stops, l :: before, after, last, rfl,
              runs_cons_eq_ok.2 ⟨next, stepped, reached⟩, beyond⟩
      · refine .inr ⟨?_, [l], input, next, rfl, runs_cons_eq_ok.2 ⟨next, stepped, rfl⟩, beyond⟩
        rw [stops]
        rfl

/-! ### Limited evaluation -/

/-- Without a limit nothing is nested too deep. -/
theorem run_none_ne_tooDeep (q : State α) (tokens : List String) :
    run A none q (lexemes A tokens) ≠ .error .tooDeep := by
  intro failing
  obtain ⟨before, t, after, middle, -, -, failed⟩ := exists_step_eq_error_of_run failing
  rcases step_eq_error_cases failed with other | ⟨-, p, -, -, deep⟩ | stopped
  · cases other
  · cases deep
  · rcases Outline.step_eq_error_cases stopped with other | other | other <;> cases other

/-- **A limited run stops at its limit** if and only if the unlimited one gets beyond it. Whichever
fault the unlimited run meets later does not matter. -/
theorem run_eq_tooDeep_iff {tokens : List String} :
    run A (some most) .start (lexemes A tokens) = .error .tooDeep ↔
      ReachesBeyond A most tokens := by
  constructor
  · intro failing
    rcases run_eq_none_or A most .start (lexemes A tokens) with same | ⟨-, stops⟩
    · exact absurd (same.symm.trans failing) (run_none_ne_tooDeep _ _)
    · obtain ⟨taken, left, q, split, reached, beyond⟩ := stops
      obtain ⟨before, after, rfl, rfl, -⟩ := List.map_eq_append_iff.1 split
      exact ⟨before, q.point, ⟨after, rfl⟩, reaches_iff.2 ⟨q, reached, rfl⟩,
        by rwa [State.depth_point]⟩
  · rintro ⟨before, p, ⟨rest, rfl⟩, reaches, beyond⟩
    obtain ⟨q, reached, rfl⟩ := reaches_iff.1 reaches
    rcases run_eq_none_or A most .start (lexemes A before) with same | ⟨stops, -⟩
    · have within : exceeds (some most) q.depth = false :=
        (point_run (same.trans reached) (exceeds_zero _)).2
      rw [State.depth_point] at beyond
      simp only [exceeds, decide_eq_false_iff_not] at within
      exact absurd beyond within
    · rw [lexemes_append, run_append, stops]
      rfl

/-- The end of the tokens is never too deep. -/
theorem finish_ne_tooDeep (q : State α) : finish A q ≠ .error .tooDeep := by
  cases q with
  | operand frame outer => simp [finish]
  | operator sum x outer => cases outer <;> simp [finish]

theorem drive_eq_tooDeep_iff {q : State α} {input : List (Lexeme α)} :
    drive A limit q input = .error .tooDeep ↔ run A limit q input = .error .tooDeep := by
  rw [drive]
  cases run A limit q input with
  | error fault => simp [Except.bind]
  | ok next => simpa [Except.bind] using finish_ne_tooDeep next

/-- **The limit is noticed** if and only if a point beyond it is reached. The end of the tokens is
no such point, whatever is still open there. -/
theorem evaluate_eq_tooDeep_iff {tokens : List String} :
    evaluate A (some most) tokens = .error .tooDeep ↔ ReachesBeyond A most tokens := by
  by_cases empty : tokens = []
  · subst empty
    refine iff_of_false (by simp [evaluate]) ?_
    rintro ⟨before, p, initial, ⟨walked, -⟩, beyond⟩
    cases List.prefix_nil.1 initial
    cases walked
    exact absurd beyond (Nat.not_lt_zero most)
  · rw [evaluate_eq_drive empty, drive_eq_tooDeep_iff, run_eq_tooDeep_iff]

/-- An evaluation that does not notice its limit goes as if there was none. Its faults are the same
then, and not only its value. -/
theorem evaluate_eq_none {tokens : List String}
    (h : evaluate A (some most) tokens ≠ .error .tooDeep) :
    evaluate A (some most) tokens = evaluate A none tokens := by
  by_cases empty : tokens = []
  · rw [empty]
    rfl
  · rw [evaluate_eq_drive empty] at h ⊢
    rw [evaluate_eq_drive empty, drive, drive]
    rcases run_eq_none_or A most .start (lexemes A tokens) with same | ⟨stops, -⟩
    · rw [same]
    · exact absurd (drive_eq_tooDeep_iff.2 stops) h

/-- **What a limit does to an evaluation.** The nesting is reported if and only if a point beyond
the limit is reached before any other fault; in all other cases the outcome is the one without a
limit. So a higher limit changes no outcome but a report of the nesting, and tokens without a point
beyond the limit are never reported, however many they are. -/
theorem evaluate_within_limit (A : Arithmetic α) (most : Nat) (tokens : List String) :
    (evaluate A (some most) tokens = .error .tooDeep ↔ ReachesBeyond A most tokens) ∧
    (evaluate A (some most) tokens ≠ .error .tooDeep →
      evaluate A (some most) tokens = evaluate A none tokens) ∧
    (∀ higher, most ≤ higher → evaluate A (some most) tokens ≠ .error .tooDeep →
      evaluate A (some higher) tokens = evaluate A (some most) tokens) ∧
    ((∀ before p, before <+: tokens → Point.run A .start before = .ok p → p.depth ≤ most) →
      evaluate A (some most) tokens ≠ .error .tooDeep) := by
  refine ⟨evaluate_eq_tooDeep_iff, evaluate_eq_none, ?_, ?_⟩
  · intro higher le shallow
    have same : evaluate A (some higher) tokens ≠ .error .tooDeep := by
      rw [ne_eq, evaluate_eq_tooDeep_iff] at shallow ⊢
      exact fun beyond => shallow (beyond.of_le le)
    rw [evaluate_eq_none same, evaluate_eq_none shallow]
  · rintro shallow deep
    obtain ⟨before, p, initial, ⟨walked, -⟩, beyond⟩ := evaluate_eq_tooDeep_iff.1 deep
    exact absurd (shallow before p initial walked) (Nat.not_le.2 beyond)

/-- A sign in a group under a sign is at depth five. Beyond a limit of four it is reported; within
five, the group that is not closed is, and so it is within any higher limit. -/
theorem evaluate_sign_in_signed_group :
    evaluate Calculator.arithmetic (some 4) ["-", "(", "-", "1"] = .error .tooDeep ∧
    evaluate Calculator.arithmetic (some Calculator.depthLimit) ["-", "(", "-", "1"] =
      .error .missingClosingParen := by
  obtain ⟨one, readsOne⟩ : ∃ x, Calculator.arithmetic.numeral? "1" = some x :=
    Option.isSome_iff_exists.1 (by decide +kernel)
  have unlimited : run Calculator.arithmetic none .start
      (lexemes Calculator.arithmetic ["-", "(", "-"]) =
      .ok (.operand ⟨none, none, [.minus]⟩ [⟨none, none, [.minus]⟩]) := rfl
  have limited : run Calculator.arithmetic (some 5) .start
      (lexemes Calculator.arithmetic ["-", "(", "-"]) =
      .ok (.operand ⟨none, none, [.minus]⟩ [⟨none, none, [.minus]⟩]) := rfl
  have beyond : ReachesBeyond Calculator.arithmetic 4 ["-", "(", "-", "1"] :=
    ⟨["-", "(", "-"], _, ⟨["1"], rfl⟩, reaches_iff.2 ⟨_, unlimited, rfl⟩, by decide⟩
  have unclosed : evaluate Calculator.arithmetic (some 5) ["-", "(", "-", "1"] =
      .error .missingClosingParen := by
    have split : ["-", "(", "-", "1"] = ["-", "(", "-"] ++ ["1"] := rfl
    rw [evaluate_eq_drive (by decide), drive, split, lexemes_append, run_append,
      limited, Except.bind, lexemes_cons, Lexeme.ofToken_of_numeral? readsOne]
    rfl
  refine ⟨(evaluate_within_limit _ 4 _).1.2 beyond, ?_⟩
  have higher := (evaluate_within_limit Calculator.arithmetic 5 ["-", "(", "-", "1"]).2.2.1
  rw [higher Calculator.depthLimit (by decide) (by simp [unclosed]), unclosed]

end Abacus.Expression
