import Mathlib
import Abacus.Json.Read

/-!
# Text that is nested too deep

The reader gives up on nesting at one place only: where as many arrays and objects are open as may
be, and another one opens in the place of a value. What is open is counted by the brackets before
that place, since every opening bracket opens a frame and every closing one closes the last.

## Main definitions

* `Json.Token.change`, `Json.nesting` — the brackets that tokens leave open.
* `Json.TooDeep` — a text that opens another array or object where no more may be open.

## Main statements

* `Json.depth_of_foldlM` — the frames of a reader are the brackets that are open.
* `Json.read_eq_tooDeep_iff` — where the reader gives up on nesting.
-/

namespace Abacus

/-- A run fails at the first step that fails, from a state that the steps before it lead to. -/
theorem foldlM_eq_error_iff {σ α ε : Type} {f : σ → α → Except ε σ} {xs : List α} {state : σ}
    {error : ε} :
    xs.foldlM f state = .error error ↔ ∃ before x after between, xs = before ++ x :: after ∧
      before.foldlM f state = .ok between ∧ f between x = .error error := by
  induction xs generalizing state with
  | nil => simp [pure, Except.pure]
  | cons x xs ih =>
      rw [List.foldlM_cons]
      constructor
      · intro failed
        cases first : f state x with
        | error _ =>
            rw [first] at failed
            cases failed
            exact ⟨[], x, xs, state, rfl, rfl, first⟩
        | ok next =>
            rw [first] at failed
            obtain ⟨before, y, after, between, rfl, led, last⟩ := ih.1 failed
            refine ⟨x :: before, y, after, between, rfl, ?_, last⟩
            rw [List.foldlM_cons, first]
            exact led
      · rintro ⟨before, y, after, between, split, led, last⟩
        cases before with
        | nil =>
            obtain ⟨rfl, rfl⟩ := List.cons.inj split
            cases led
            rw [last]
            rfl
        | cons x' before =>
            obtain ⟨rfl, rfl⟩ := List.cons.inj split
            rw [List.foldlM_cons] at led
            cases first : f state x with
            | error _ =>
                rw [first] at led
                cases led
            | ok next =>
                rw [first] at led
                exact ih.2 ⟨before, y, after, between, rfl, led, last⟩

namespace Json

/-! ### Brackets -/

/-- The token opens an array or an object. -/
def Token.Opens (token : Token) : Prop := token = .openArray ∨ token = .openObject

/-- How many more arrays and objects are open after a token. -/
def Token.change : Token → Int
  | .openArray | .openObject => 1
  | .closeArray | .closeObject => -1
  | _ => 0

/-- How many brackets of a text are open after some of its tokens. It may be negative, as the tokens
need not be those of JSON. -/
def nesting (tokens : List Token) : Int := (tokens.map Token.change).sum

/-! ### Frames -/

/-- The arrays and objects that are open in a state. Those in the frames are counted, and the one in
hand. -/
def State.depth : State → Nat
  | .value around => around.length
  | .firstItem around => around.length + 1
  | .afterItem _ around => around.length + 1
  | .firstName around => around.length + 1
  | .name _ around => around.length + 1
  | .afterName _ _ around => around.length + 1
  | .afterMember _ around => around.length + 1
  | .finished _ => 0

/-- The states in which a value may come next. Only in these does the reader mind its limit. -/
def State.AwaitsValue (state : State) : Prop :=
  (∃ around, state = .value around) ∨ ∃ around, state = .firstItem around

theorem depth_complete (v : Json) (around : List Frame) :
    (State.complete v around).depth = around.length := by
  cases around with
  | nil => rfl
  | cons frame around => cases frame <;> rfl

/-- The reader goes from a state to the next over a token: as many frames open and close as
brackets, and none opens beyond the limit. -/
def Balances (state : State) (token : Token) (next : State) : Prop :=
  (next.depth : Int) = state.depth + token.change ∧ next.depth ≤ max state.depth nestingLimit

/-- The first token of a value opens as many frames as brackets. A scalar opens none of either. -/
theorem balances_begin {around : List Frame} {token : Token} {next : State}
    (h : State.begin around token = .ok next) : Balances (.value around) token next := by
  cases token with
  | scalar v =>
      cases h
      simp only [Balances, depth_complete]
      simp [State.depth, Token.change]
  | openArray | openObject =>
      simp only [State.begin] at h
      split at h
      · cases h
      · cases h
        simp only [Balances, State.depth, Token.change]
        omega
  | _ => cases h

/-- **A token opens and closes as many frames as brackets,** and opens none beyond the limit. -/
theorem balances_step {state next : State} {token : Token} (h : step state token = .ok next) :
    Balances state token next := by
  unfold step at h
  split at h
  · cases h
  · exact balances_begin h
  · cases h
    simp only [Balances, depth_complete]
    simp [State.depth, Token.change]
  · exact balances_begin h
  all_goals first
    | (cases h; done)
    | cases h
      simp only [Balances, depth_complete]
      simp [State.depth, Token.change]

/-- **The frames of a reader are the brackets that are open,** and no more than may be. The tokens
alone settle the depth, so whether a text is too deep can be said without the reader. -/
theorem depth_of_foldlM {tokens : List Token} {state next : State}
    (h : tokens.foldlM step state = .ok next) :
    (next.depth : Int) = state.depth + nesting tokens ∧
      next.depth ≤ max state.depth nestingLimit := by
  induction tokens generalizing state with
  | nil =>
      cases h
      simp [nesting]
  | cons token tokens ih =>
      rw [List.foldlM_cons] at h
      cases first : step state token with
      | error error =>
          rw [first] at h
          cases h
      | ok between =>
          rw [first] at h
          have change := balances_step first
          have others := ih h
          simp only [Balances] at change
          simp only [nesting, List.map_cons, List.sum_cons] at others ⊢
          omega

/-! ### Where the reader gives up -/

/-- A value that begins is one too many where it opens another frame and the limit is reached. A
scalar at the same place is no fault. -/
theorem begin_eq_tooDeep_iff {around : List Frame} {token : Token} (h : token ≠ .stop .tooDeep) :
    State.begin around token = .error .tooDeep ↔
      token.Opens ∧ nestingLimit ≤ around.length := by
  cases token with
  | openArray | openObject => simp [State.begin, Token.Opens]
  | stop error =>
      have other : error ≠ .tooDeep := fun same => h (congrArg Token.stop same)
      simp [State.begin, Token.Opens, other]
  | _ => simp [State.begin, Token.Opens]

/-- An opening bracket or brace is one too many where a value may come and the limit is reached.
Elsewhere it is out of place, and the text is no JSON at all. -/
theorem step_eq_tooDeep_iff {state : State} {token : Token} (h : token ≠ .stop .tooDeep) :
    step state token = .error .tooDeep ↔
      state.AwaitsValue ∧ token.Opens ∧ nestingLimit ≤ state.depth := by
  -- Two states begin a value; in all others the step does not look at the limit.
  fun_cases step state token with
  | case1 state error =>
      have other : error ≠ .tooDeep := fun same => h (congrArg Token.stop same)
      simp [Token.Opens, other]
  | case2 around token _ => simp [begin_eq_tooDeep_iff h, State.AwaitsValue, State.depth]
  | case4 around token _ _ => simp [begin_eq_tooDeep_iff h, State.AwaitsValue, State.depth]
  | case13 state token noValue noItem =>
      have never : ¬ state.AwaitsValue := by
        rintro (⟨around, rfl⟩ | ⟨around, rfl⟩)
        · exact noValue around rfl
        · exact noItem around rfl
      simp [never]
  | _ => simp [State.AwaitsValue, Token.Opens]

/-- Numbers are not nested. -/
theorem ofNumber_ne_tooDeep (negative : Bool) (body : List Char) :
    ofNumber negative body ≠ .error .tooDeep := by
  unfold ofNumber
  dsimp only
  split
  · simp
  · split <;> split <;> simp

theorem ofWord_ne_tooDeep (word : List Char) : ofWord word ≠ .error .tooDeep := by
  unfold ofWord
  split
  case h_7 => split <;> exact ofNumber_ne_tooDeep _ _
  all_goals simp

/-- Scanning does not count brackets. So this fault comes of the reader only. -/
theorem ne_stop_tooDeep (cs : List Char) : ∀ token ∈ Token.scan cs, token ≠ .stop .tooDeep := by
  fun_induction Token.scan cs with
  | case1 => simp
  | case2 _ _ _ ih => exact ih
  | case9 | case10 | case14 => simp
  | case12 c rest _ _ _ _ _ _ _ _ _ _ error failed =>
      have other : error ≠ .tooDeep := by
        rintro rfl
        exact ofWord_ne_tooDeep _ failed
      simpa using other
  | _ => exact List.forall_mem_cons.2 ⟨by simp, by assumption⟩

/-- The text opens another array or object in the place of a value, where as many are open as may
be. -/
def TooDeep (text : String) : Prop :=
  ∃ before token after state, Token.scan text.toList = before ++ token :: after ∧
    before.foldlM step (.value []) = .ok state ∧ state.AwaitsValue ∧ token.Opens ∧
    nesting before = nestingLimit

/-- **Where the reader gives up on nesting:** at an opening bracket in the place of a value, when as
many are open as may be, if it has met no other error before. -/
theorem read_eq_tooDeep_iff {text : String} : read text = .error .tooDeep ↔ TooDeep text := by
  have unfinished : read text = .error .tooDeep ↔
      (Token.scan text.toList).foldlM step (.value []) = .error .tooDeep := by
    rw [read]
    split <;> simp_all
  rw [unfinished, foldlM_eq_error_iff]
  constructor
  · rintro ⟨before, token, after, state, split, led, failed⟩
    have scanned : token ∈ Token.scan text.toList := by simp [split]
    obtain ⟨awaits, opens, full⟩ := (step_eq_tooDeep_iff (ne_stop_tooDeep _ token scanned)).1 failed
    obtain ⟨balance, room⟩ := depth_of_foldlM led
    -- The step fails only where the limit is reached, and no frames beyond it can be open.
    refine ⟨before, token, after, state, split, led, awaits, opens, ?_⟩
    have depth : state.depth = nestingLimit := le_antisymm (by simpa [State.depth] using room) full
    rw [depth] at balance
    simpa [State.depth] using balance.symm
  · rintro ⟨before, token, after, state, split, led, awaits, opens, full⟩
    have scanned : token ∈ Token.scan text.toList := by simp [split]
    have balance := (depth_of_foldlM led).1
    have depth : (state.depth : Int) = nestingLimit := by
      rw [balance, full]
      simp [State.depth]
    exact ⟨before, token, after, state, split, led,
      (step_eq_tooDeep_iff (ne_stop_tooDeep _ token scanned)).2 ⟨awaits, opens, by omega⟩⟩

end Json

end Abacus
