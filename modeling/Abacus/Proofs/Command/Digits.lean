import Mathlib
import Abacus.Command.Run

/-!
# The number of digits of a run

Options take precedence over the environment. Neither gives a negative number of digits.

## Main statements

* `Settings.one_le_of_ofEnvironment` — the digits that an environment gives.
* `Command.Arguments.nonneg_of_parse` — the digits that options give.
* `Command.nonneg_of_override` — the digits of a run.
-/

namespace Abacus

/-! ### From the environment -/

namespace Settings

theorem one_le_of_digitsOf {variableName text : String} {digits : Option Int}
    (h : digitsOf variableName text = .ok digits) : ∀ n ∈ digits, 1 ≤ n := by
  unfold digitsOf at h
  split at h
  · cases h
    simp
  · split at h
    · cases h
    · next n spelled =>
        split at h
        · cases h
        · cases h
          simpa using ‹¬ n < 1›

/-- An environment gives one digit or more, or none at all. There is no upper bound here; a number
that is too large is found when a value is shown. -/
theorem one_le_of_ofEnvironment {environment : List (String × String)} {settings : Settings}
    (h : ofEnvironment environment = .ok settings) : ∀ n ∈ settings.digits, 1 ≤ n := by
  unfold ofEnvironment at h
  cases strict : switchOf strictVariable (variableText environment strictVariable) with
  | error error => simp [strict, bind, Except.bind] at h
  | ok on =>
      cases digits : digitsOf digitsVariable (variableText environment digitsVariable) with
      | error error => simp [strict, digits, bind, Except.bind] at h
      | ok count =>
          simp only [strict, digits, bind, Except.bind, pure, Except.pure, Except.ok.injEq] at h
          subst h
          exact one_le_of_digitsOf digits

end Settings

/-! ### From options -/

namespace Command

namespace Arguments

theorem nonneg_of_digitsOf? {text : String} {n : Int} (h : digitsOf? text = some n) : 0 ≤ n := by
  obtain ⟨count, -, rfl⟩ := Option.map_eq_some_iff.1 h
  exact Int.natCast_nonneg count

theorem nonneg_of_request {name : Name} {sorted : Sorted} {invocation : Invocation}
    (h : request name sorted = .run invocation) : ∀ n ∈ invocation.overrides.2, 0 ≤ n := by
  unfold request at h
  split at h
  · cases h
  split at h
  · cases h
    cases name <;> simp [Invocation.overrides]
  · next argument n _ asked =>
      obtain ⟨text, -, spelled⟩ := Option.map_eq_some_iff.1 asked
      have nonneg := nonneg_of_digitsOf? spelled
      cases h
      cases name <;> simp [Invocation.overrides, nonneg]
  · cases h

theorem nonneg_of_parseCommand {args : List String} {invocation : Invocation}
    (h : parseCommand args = .run invocation) : ∀ n ∈ invocation.overrides.2, 0 ≤ n := by
  unfold parseCommand at h
  split at h
  · cases h
  split at h
  · split at h
    · exact nonneg_of_request h
    · cases h
  · split at h <;> cases h

/-- Options give no negative number of digits. -/
theorem nonneg_of_parse {args : List String} {invocation : Invocation}
    (h : parse args = .run invocation) : ∀ n ∈ invocation.overrides.2, 0 ≤ n := by
  unfold parse at h
  split at h
  · cases h
  · exact nonneg_of_parseCommand h
  · exact nonneg_of_parseCommand h

end Arguments

/-- A run has no negative number of digits. Whether it is given by an option or by the environment
does not matter. -/
theorem nonneg_of_override {environment : List (String × String)} {settings : Settings}
    (found : Settings.ofEnvironment environment = .ok settings) (strict : Option Bool)
    {digits : Option Int} (asked : ∀ n ∈ digits, 0 ≤ n) :
    ∀ n ∈ (settings.override strict digits).digits, 0 ≤ n := by
  intro n member
  rcases Option.or_eq_some_iff.1 member with option | ⟨-, setting⟩
  · exact asked n option
  · exact Int.le_of_lt (Settings.one_le_of_ofEnvironment found n setting)

end Command

end Abacus
