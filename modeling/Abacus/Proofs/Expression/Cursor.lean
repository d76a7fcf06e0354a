import Abacus.Proofs.Expression.Derivation

/-!
# The cursor of the descent

Reading moves a cursor along the tokens. A call looks at the token under the cursor, or sees that
there is none, and moves past it only after it has seen it. Here calls are followed by the positions
of the cursor, those that fail included: `Walks` says where each call leaves it.

A call that ends with a value has moved the cursor forward, and its value depends on nothing but the
tokens that the cursor has passed, as long as the token behind them does not continue what was read.

## Main definitions

* `peek` — what is under the cursor.
* `Walks` — where a call leaves the cursor, and with which outcome.
* `Level.continuations` — the tokens with which a level goes on.
* `LeavesNoLess` — a limit and a depth that leave as much room for nesting as others.

## Main statements

* `Walks.le_and_le_length` — the cursor never goes back, nor past the end.
* `Walks.reads`, `Reads.exists_walks` — calls with a cursor read what calls without one read.
* `walks_forward_locally` — calls end, move forward, and see no more than the token behind.
-/

namespace Abacus.Expression

variable {α : Type} {A : Arithmetic α} {limit limit' : Option Nat} {tokens tokens' : List String}

/-! ### Walks -/

/-- What the token at a position means. There is none at the end of the tokens. A walk looks at
tokens through this only, and at one at a time. -/
def peek (A : Arithmetic α) (tokens : List String) (p : Nat) : Option (Lexeme α) :=
  tokens[p]?.map (Lexeme.ofToken A)

/-- `Walks A limit tokens level d p outcome q`: at a depth of nesting, a call of a level with the
cursor at the position `p` ends with the outcome, a fault or a value, and leaves the cursor at `q`.
-/
inductive Walks (A : Arithmetic α) (limit : Option Nat) (tokens : List String) :
    Level α → Nat → Nat → Except Fault α → Nat → Prop
  /-- The first term of an expression fails. -/
  | expressionFault {d p fault q} :
      Walks A limit tokens .term d p (.error fault) q →
      Walks A limit tokens .expression d p (.error fault) q
  /-- The first term of an expression is followed by its chain. -/
  | expression {d p x m outcome q} :
      Walks A limit tokens .term d p (.ok x) m →
      Walks A limit tokens (.sums x) d m outcome q →
      Walks A limit tokens .expression d p outcome q
  /-- A chain of terms ends. -/
  | sumsEnd {d x p} :
      (∀ l ∈ peek A tokens p, A.sum? l = none) → Walks A limit tokens (.sums x) d p (.ok x) p
  /-- A further term fails. -/
  | sumsFault {d x p s fault q} :
      peek A tokens p = some (Sign.lexeme s) →
      Walks A limit tokens .term d (p + 1) (.error fault) q →
      Walks A limit tokens (.sums x) d p (.error fault) q
  /-- A further term is added or subtracted. -/
  | sums {d x p s y m outcome q} :
      peek A tokens p = some (Sign.lexeme s) →
      Walks A limit tokens .term d (p + 1) (.ok y) m →
      Walks A limit tokens (.sums (s.combine A x y)) d m outcome q →
      Walks A limit tokens (.sums x) d p outcome q
  /-- The first factor of a term fails. -/
  | termFault {d p fault q} :
      Walks A limit tokens .factor d p (.error fault) q →
      Walks A limit tokens .term d p (.error fault) q
  /-- The first factor of a term is followed by its chain. -/
  | term {d p x m outcome q} :
      Walks A limit tokens .factor d p (.ok x) m →
      Walks A limit tokens (.products x) d m outcome q →
      Walks A limit tokens .term d p outcome q
  /-- A chain of factors ends. -/
  | productsEnd {d x p} :
      (∀ l ∈ peek A tokens p, A.product? l = none) →
      Walks A limit tokens (.products x) d p (.ok x) p
  /-- A further factor fails. -/
  | productsFault {d x p s fault q} :
      peek A tokens p = some (Scale.lexeme s) →
      Walks A limit tokens .factor d (p + 1) (.error fault) q →
      Walks A limit tokens (.products x) d p (.error fault) q
  /-- A further factor may not divide. -/
  | productsZero {d x p s y q fault} :
      peek A tokens p = some (Scale.lexeme s) →
      Walks A limit tokens .factor d (p + 1) (.ok y) q →
      s.combine A x y = .error fault →
      Walks A limit tokens (.products x) d p (.error fault) q
  /-- A further factor multiplies or divides. -/
  | products {d x p s y z m outcome q} :
      peek A tokens p = some (Scale.lexeme s) →
      Walks A limit tokens .factor d (p + 1) (.ok y) m →
      s.combine A x y = .ok z →
      Walks A limit tokens (.products z) d m outcome q →
      Walks A limit tokens (.products x) d p outcome q
  /-- There is no factor at the end. -/
  | factorEnd {d p} :
      peek A tokens p = none → Walks A limit tokens .factor d p (.error .unexpectedEnd) p
  /-- A sign nests too deep. -/
  | signDeep {d p s} :
      peek A tokens p = some (Sign.lexeme s) → exceeds limit (d + signDepth) = true →
      Walks A limit tokens .factor d p (.error .tooDeep) (p + 1)
  /-- The factor after a sign fails. -/
  | signFault {d p s fault q} :
      peek A tokens p = some (Sign.lexeme s) → exceeds limit (d + signDepth) = false →
      Walks A limit tokens .factor (d + signDepth) (p + 1) (.error fault) q →
      Walks A limit tokens .factor d p (.error fault) q
  /-- A sign applies to the factor after it. -/
  | sign {d p s x q} :
      peek A tokens p = some (Sign.lexeme s) → exceeds limit (d + signDepth) = false →
      Walks A limit tokens .factor (d + signDepth) (p + 1) (.ok x) q →
      Walks A limit tokens .factor d p (.ok (s.apply A x)) q
  /-- A number is a factor. -/
  | number {d p token x} :
      peek A tokens p = some (.number token x) → Walks A limit tokens .factor d p (.ok x) (p + 1)
  /-- A group nests too deep. -/
  | groupDeep {d p} :
      peek A tokens p = some .opening → exceeds limit (d + groupDepth) = true →
      Walks A limit tokens .factor d p (.error .tooDeep) (p + 1)
  /-- The expression of a group fails. -/
  | groupFault {d p fault q} :
      peek A tokens p = some .opening → exceeds limit (d + groupDepth) = false →
      Walks A limit tokens .expression (d + groupDepth) (p + 1) (.error fault) q →
      Walks A limit tokens .factor d p (.error fault) q
  /-- A group is an expression and a closing parenthesis. -/
  | group {d p x q} :
      peek A tokens p = some .opening → exceeds limit (d + groupDepth) = false →
      Walks A limit tokens .expression (d + groupDepth) (p + 1) (.ok x) q →
      peek A tokens q = some .closing →
      Walks A limit tokens .factor d p (.ok x) (q + 1)
  /-- A group is not closed. -/
  | groupOpen {d p x q} :
      peek A tokens p = some .opening → exceeds limit (d + groupDepth) = false →
      Walks A limit tokens .expression (d + groupDepth) (p + 1) (.ok x) q →
      peek A tokens q ≠ some .closing →
      Walks A limit tokens .factor d p (.error .missingClosingParen) q
  /-- Nothing else is a factor. -/
  | other {d p l} :
      peek A tokens p = some l → BeginsNoFactor l →
      Walks A limit tokens .factor d p (.error (.invalidToken l.token)) p

/-! ### Positions -/

/-- A token that is seen is one of the tokens. -/
theorem lt_length_of_peek {p : Nat} {l : Lexeme α} (h : peek A tokens p = some l) :
    p < tokens.length := by
  obtain ⟨t, there, -⟩ := Option.map_eq_some_iff.1 h
  exact (List.getElem?_eq_some_iff.1 there).1

/-- The number of tokens that a level takes at least. A chain may be empty. All others take one, so
a walk that succeeds makes progress. -/
def Level.least : Level α → Nat
  | .expression | .term | .factor => 1
  | .sums _ | .products _ => 0

/-- **The cursor never goes back, nor past the end,** and a value takes a token unless it is that of
an empty chain. -/
theorem Walks.le_and_le_length {level : Level α} {d p q : Nat} {outcome : Except Fault α}
    (h : Walks A limit tokens level d p outcome q) (start : p ≤ tokens.length) :
    p ≤ q ∧ q ≤ tokens.length ∧ ∀ v, outcome = .ok v → p + level.least ≤ q := by
  induction h with
  | expressionFault _ ih | termFault _ ih =>
      obtain ⟨forward, inside, -⟩ := ih start
      exact ⟨forward, inside, nofun⟩
  | expression _ _ first next | term _ _ first next =>
      obtain ⟨-, inside, took⟩ := first start
      obtain ⟨forward, inside', -⟩ := next inside
      have taken := took _ rfl
      simp only [Level.least] at taken ⊢
      exact ⟨by omega, inside', fun _ _ => by omega⟩
  | sumsEnd | productsEnd => exact ⟨Nat.le_refl _, start, fun _ _ => Nat.le_refl _⟩
  | factorEnd | other => exact ⟨Nat.le_refl _, start, nofun⟩
  | number seen | signDeep seen | groupDeep seen =>
      exact ⟨Nat.le_succ _, lt_length_of_peek seen, fun _ _ => Nat.le_refl _⟩
  | sumsFault seen _ ih | productsFault seen _ ih | productsZero seen _ _ ih
  | signFault seen _ _ ih | groupFault seen _ _ ih | groupOpen seen _ _ _ ih =>
      obtain ⟨forward, inside, -⟩ := ih (lt_length_of_peek seen)
      exact ⟨Nat.le_of_succ_le forward, inside, nofun⟩
  | sums seen _ _ first next | products seen _ _ _ first next =>
      obtain ⟨forward, inside, -⟩ := first (lt_length_of_peek seen)
      obtain ⟨forward', inside', -⟩ := next inside
      simp only [Level.least]
      exact ⟨by omega, inside', fun _ _ => by omega⟩
  | sign seen _ _ ih =>
      obtain ⟨forward, inside, -⟩ := ih (lt_length_of_peek seen)
      exact ⟨Nat.le_of_succ_le forward, inside, fun _ _ => forward⟩
  | group seen _ _ closed ih =>
      obtain ⟨forward, -, -⟩ := ih (lt_length_of_peek seen)
      simp only [Level.least]
      exact ⟨by omega, lt_length_of_peek closed, fun _ _ => by omega⟩

/-! ### One way to walk -/

/-- Where a chain of terms ends, no sign is seen. -/
theorem peek_ne_sign {p : Nat} (ends : ∀ l ∈ peek A tokens p, A.sum? l = none) (s : Sign) :
    peek A tokens p ≠ some s.lexeme := by
  intro seen
  simpa using ends _ seen

/-- Where a chain of factors ends, no operator between factors is seen. -/
theorem peek_ne_scale {p : Nat} (ends : ∀ l ∈ peek A tokens p, A.product? l = none) (s : Scale) :
    peek A tokens p ≠ some s.lexeme := by
  intro seen
  simpa using ends _ seen

theorem Sign.lexeme_eq (s : Sign) :
    (s.lexeme : Lexeme α) = .plus ∨ (s.lexeme : Lexeme α) = .minus := by
  cases s <;> simp [Sign.lexeme]

theorem Sign.lexeme_injective {s s' : Sign} (h : (s.lexeme : Lexeme α) = s'.lexeme) : s = s' :=
  Sign.token_injective (by simpa using congrArg Lexeme.token h)

theorem Scale.lexeme_injective {s s' : Scale} (h : (s.lexeme : Lexeme α) = s'.lexeme) : s = s' :=
  Scale.token_injective (by simpa using congrArg Lexeme.token h)

/-- **A call ends in one way:** what the cursor sees decides which rule applies. So a walk is what a
function does, although it is a relation. -/
theorem Walks.unique {level : Level α} {d p q q' : Nat} {outcome outcome' : Except Fault α}
    (h : Walks A limit tokens level d p outcome q)
    (h' : Walks A limit tokens level d p outcome' q') : outcome = outcome' ∧ q = q' := by
  induction h generalizing outcome' q' with
  | expressionFault | expression | termFault | term => cases h' <;> grind
  | sumsEnd | sumsFault | sums => cases h' <;> grind [peek_ne_sign, Sign.lexeme_injective]
  | productsEnd | productsFault | productsZero | products =>
      cases h' <;> grind [peek_ne_scale, Scale.lexeme_injective]
  | factorEnd | signDeep | signFault | sign | number | groupDeep | groupFault | group | groupOpen
  | other => cases h' <;> grind [Sign.lexeme_eq, Sign.lexeme_injective, BeginsNoFactor]

/-! ### Walking and reading -/

theorem head?_lexemes_drop (p : Nat) : (lexemes A (tokens.drop p)).head? = peek A tokens p := by
  rw [lexemes, List.head?_map, List.head?_drop, peek]

/-- The lexemes from a position on begin with what is seen there. -/
theorem lexemes_drop_of_peek {p : Nat} {l : Lexeme α} (h : peek A tokens p = some l) :
    lexemes A (tokens.drop p) = l :: lexemes A (tokens.drop (p + 1)) := by
  obtain ⟨t, there, rfl⟩ := Option.map_eq_some_iff.1 h
  obtain ⟨inside, rfl⟩ := List.getElem?_eq_some_iff.1 there
  rw [List.drop_eq_getElem_cons inside, lexemes_cons]

/-- Where lexemes begin with one, it is seen. -/
theorem peek_of_cons_eq {p : Nat} {l : Lexeme α} {rest : List (Lexeme α)}
    (h : l :: rest = lexemes A (tokens.drop p)) :
    peek A tokens p = some l ∧ rest = lexemes A (tokens.drop (p + 1)) := by
  have seen : peek A tokens p = some l := by rw [← head?_lexemes_drop, ← h, List.head?_cons]
  exact ⟨seen, (List.cons.inj (h.trans (lexemes_drop_of_peek seen))).2⟩

/-- What a walk reads: its value, and the lexemes from the cursor on. A walk that fails leaves a
cursor too, but nothing is read from there. -/
def outcomeAt (A : Arithmetic α) (tokens : List String) (outcome : Except Fault α) (q : Nat) :
    Except Fault (α × List (Lexeme α)) :=
  outcome.map fun v => (v, lexemes A (tokens.drop q))

/-- **What a walk reads** is what its level reads from the tokens at its start. A walk looks at
tokens by position and reading takes lexemes from a list; here both are the same. -/
theorem Walks.reads {level : Level α} {d p q : Nat} {outcome : Except Fault α}
    (h : Walks A limit tokens level d p outcome q) :
    Reads A limit level d (lexemes A (tokens.drop p)) (outcomeAt A tokens outcome q) := by
  have sees {p : Nat} : (lexemes A (tokens.drop p)).head? = peek A tokens p := head?_lexemes_drop p
  -- On the steps of a walk. Only those that see a token have something to show.
  induction h with
  | expressionFault _ ih => exact .expressionFault ih
  | expression _ _ first next => exact .expression first next
  | sumsEnd ends => exact .sumsEnd (by rwa [EndsSums, sees])
  | sumsFault seen _ ih =>
      rw [lexemes_drop_of_peek seen]
      exact .sumsFault ih
  | sums seen _ _ first next =>
      rw [lexemes_drop_of_peek seen]
      exact .sums first next
  | termFault _ ih => exact .termFault ih
  | term _ _ first next => exact .term first next
  | productsEnd ends => exact .productsEnd (by rwa [EndsProducts, sees])
  | productsFault seen _ ih =>
      rw [lexemes_drop_of_peek seen]
      exact .productsFault ih
  | productsZero seen _ zero ih =>
      rw [lexemes_drop_of_peek seen]
      exact .productsZero ih zero
  | products seen _ combined _ first next =>
      rw [lexemes_drop_of_peek seen]
      exact .products first combined next
  | factorEnd ends =>
      rw [List.head?_eq_none_iff.1 (sees.trans ends)]
      exact .factorEnd
  | signDeep seen deep =>
      rw [lexemes_drop_of_peek seen]
      exact .signDeep deep
  | signFault seen shallow _ ih =>
      rw [lexemes_drop_of_peek seen]
      exact .signFault shallow ih
  | sign seen shallow _ ih =>
      rw [lexemes_drop_of_peek seen]
      exact .sign shallow ih
  | number seen =>
      rw [lexemes_drop_of_peek seen]
      exact .number
  | groupDeep seen deep =>
      rw [lexemes_drop_of_peek seen]
      exact .groupDeep deep
  | groupFault seen shallow _ ih =>
      rw [lexemes_drop_of_peek seen]
      exact .groupFault shallow ih
  | group seen shallow _ closed ih =>
      rw [outcomeAt, Except.map, lexemes_drop_of_peek closed] at ih
      rw [lexemes_drop_of_peek seen]
      exact .group shallow ih
  | groupOpen seen shallow _ isOpen ih =>
      rw [lexemes_drop_of_peek seen]
      exact .groupOpen shallow ih (by rwa [sees])
  | other seen none =>
      rw [lexemes_drop_of_peek seen]
      exact .other none

theorem ok_eq_outcomeAt {outcome : Except Fault α} {x : α} {rest : List (Lexeme α)} {q : Nat}
    (h : .ok (x, rest) = outcomeAt A tokens outcome q) :
    outcome = .ok x ∧ rest = lexemes A (tokens.drop q) := by
  cases outcome with
  | error fault => cases h
  | ok v =>
      cases h
      exact ⟨rfl, rfl⟩

theorem error_eq_outcomeAt {outcome : Except Fault α} {fault : Fault} {q : Nat}
    (h : .error fault = outcomeAt A tokens outcome q) : outcome = .error fault := by
  cases outcome with
  | error fault =>
      cases h
      rfl
  | ok v => cases h

/-- **Every reading is a walk.** So a call of any level ends, since reading does. -/
theorem Reads.exists_walks {level : Level α} {d : Nat} {input : List (Lexeme α)}
    {result : Except Fault (α × List (Lexeme α))} (h : Reads A limit level d input result) {p : Nat}
    (given : input = lexemes A (tokens.drop p)) :
    ∃ outcome q, Walks A limit tokens level d p outcome q ∧
      result = outcomeAt A tokens outcome q := by
  -- On the rules of reading, with the cursor as what is left to choose: each rule is the step of a
  -- walk of the same name, from the lexemes that start at the cursor.
  induction h generalizing p with
  | expressionFault _ ih =>
      obtain ⟨_, q, walk, same⟩ := ih given
      obtain rfl := error_eq_outcomeAt same
      exact ⟨_, q, .expressionFault walk, rfl⟩
  | expression _ _ first next =>
      obtain ⟨_, m, walk, same⟩ := first given
      obtain ⟨rfl, given⟩ := ok_eq_outcomeAt same
      obtain ⟨_, q, walk', same⟩ := next given
      exact ⟨_, q, .expression walk walk', same⟩
  | sumsEnd ends =>
      rw [EndsSums, given, head?_lexemes_drop] at ends
      exact ⟨_, p, .sumsEnd ends, by rw [given]; rfl⟩
  | sumsFault _ ih =>
      obtain ⟨seen, given⟩ := peek_of_cons_eq given
      obtain ⟨_, q, walk, same⟩ := ih given
      obtain rfl := error_eq_outcomeAt same
      exact ⟨_, q, .sumsFault seen walk, rfl⟩
  | sums _ _ first next =>
      obtain ⟨seen, given⟩ := peek_of_cons_eq given
      obtain ⟨_, m, walk, same⟩ := first given
      obtain ⟨rfl, given⟩ := ok_eq_outcomeAt same
      obtain ⟨_, q, walk', same⟩ := next given
      exact ⟨_, q, .sums seen walk walk', same⟩
  | termFault _ ih =>
      obtain ⟨_, q, walk, same⟩ := ih given
      obtain rfl := error_eq_outcomeAt same
      exact ⟨_, q, .termFault walk, rfl⟩
  | term _ _ first next =>
      obtain ⟨_, m, walk, same⟩ := first given
      obtain ⟨rfl, given⟩ := ok_eq_outcomeAt same
      obtain ⟨_, q, walk', same⟩ := next given
      exact ⟨_, q, .term walk walk', same⟩
  | productsEnd ends =>
      rw [EndsProducts, given, head?_lexemes_drop] at ends
      exact ⟨_, p, .productsEnd ends, by rw [given]; rfl⟩
  | productsFault _ ih =>
      obtain ⟨seen, given⟩ := peek_of_cons_eq given
      obtain ⟨_, q, walk, same⟩ := ih given
      obtain rfl := error_eq_outcomeAt same
      exact ⟨_, q, .productsFault seen walk, rfl⟩
  | productsZero _ zero ih =>
      obtain ⟨seen, given⟩ := peek_of_cons_eq given
      obtain ⟨_, q, walk, same⟩ := ih given
      obtain ⟨rfl, -⟩ := ok_eq_outcomeAt same
      exact ⟨_, q, .productsZero seen walk zero, rfl⟩
  | products _ combined _ first next =>
      obtain ⟨seen, given⟩ := peek_of_cons_eq given
      obtain ⟨_, m, walk, same⟩ := first given
      obtain ⟨rfl, given⟩ := ok_eq_outcomeAt same
      obtain ⟨_, q, walk', same⟩ := next given
      exact ⟨_, q, .products seen walk combined walk', same⟩
  | factorEnd =>
      have ends : peek A tokens p = none := by rw [← head?_lexemes_drop, ← given, List.head?_nil]
      exact ⟨_, p, .factorEnd ends, rfl⟩
  | signDeep deep =>
      obtain ⟨seen, -⟩ := peek_of_cons_eq given
      exact ⟨_, _, .signDeep seen deep, rfl⟩
  | signFault shallow _ ih =>
      obtain ⟨seen, given⟩ := peek_of_cons_eq given
      obtain ⟨_, q, walk, same⟩ := ih given
      obtain rfl := error_eq_outcomeAt same
      exact ⟨_, q, .signFault seen shallow walk, rfl⟩
  | sign shallow _ ih =>
      obtain ⟨seen, given⟩ := peek_of_cons_eq given
      obtain ⟨_, q, walk, same⟩ := ih given
      obtain ⟨rfl, rest⟩ := ok_eq_outcomeAt same
      exact ⟨_, q, .sign seen shallow walk, by rw [rest]; rfl⟩
  | number =>
      obtain ⟨seen, rest⟩ := peek_of_cons_eq given
      exact ⟨_, _, .number seen, by rw [rest]; rfl⟩
  | groupDeep deep =>
      obtain ⟨seen, -⟩ := peek_of_cons_eq given
      exact ⟨_, _, .groupDeep seen deep, rfl⟩
  | groupFault shallow _ ih =>
      obtain ⟨seen, given⟩ := peek_of_cons_eq given
      obtain ⟨_, q, walk, same⟩ := ih given
      obtain rfl := error_eq_outcomeAt same
      exact ⟨_, q, .groupFault seen shallow walk, rfl⟩
  | group shallow _ ih =>
      obtain ⟨seen, given⟩ := peek_of_cons_eq given
      obtain ⟨_, q, walk, same⟩ := ih given
      obtain ⟨rfl, given⟩ := ok_eq_outcomeAt same
      obtain ⟨closed, rest⟩ := peek_of_cons_eq given
      exact ⟨_, _, .group seen shallow walk closed, by rw [rest]; rfl⟩
  | groupOpen shallow _ isOpen ih =>
      obtain ⟨seen, given⟩ := peek_of_cons_eq given
      obtain ⟨_, q, walk, same⟩ := ih given
      obtain ⟨rfl, rest⟩ := ok_eq_outcomeAt same
      rw [rest, head?_lexemes_drop] at isOpen
      exact ⟨_, q, .groupOpen seen shallow walk isOpen, rfl⟩
  | other none =>
      obtain ⟨seen, -⟩ := peek_of_cons_eq given
      exact ⟨_, p, .other seen none, rfl⟩

/-! ### Locality -/

theorem lexemes_injective (A : Arithmetic α) : Function.Injective (lexemes A) :=
  List.map_injective_iff.2 (Function.LeftInverse.injective (Lexeme.token_ofToken A))

/-- The tokens with which a level goes on behind what it has read. A walk that ends has seen that
the next token is none of these, and this is all that it has seen of what follows. -/
def Level.continuations : Level α → List String
  | .expression | .sums _ => ["+", "-", "*", "/"]
  | .term | .products _ => ["*", "/"]
  | .factor => []

/-- The second limit leaves as much room for nesting at the second depth as the first limit leaves
at the first depth, or more. -/
def LeavesNoLess (limit : Option Nat) (d : Nat) (limit' : Option Nat) (d' : Nat) : Prop :=
  ∀ n, exceeds limit (d + n) = false → exceeds limit' (d' + n) = false

theorem endsSums_of_notMem {after : List String} (h : ∀ t ∈ after.head?, t ∉ ["+", "-"]) :
    EndsSums A (lexemes A after) := by
  intro l first
  rw [lexemes, List.head?_map] at first
  obtain ⟨t, there, meaning⟩ := Option.map_eq_some_iff.1 first
  cases found : A.sum? l with
  | none => rfl
  | some c =>
      obtain ⟨s, rfl, -⟩ := Sign.exists_of_sum?_eq_some found
      obtain rfl : t = s.token := by simpa using Lexeme.eq_token_of_ofToken_eq meaning
      exact absurd (by cases s <;> simp [Sign.token]) (h _ there)

theorem endsProducts_of_notMem {after : List String} (h : ∀ t ∈ after.head?, t ∉ ["*", "/"]) :
    EndsProducts A (lexemes A after) := by
  intro l first
  rw [lexemes, List.head?_map] at first
  obtain ⟨t, there, meaning⟩ := Option.map_eq_some_iff.1 first
  cases found : A.product? l with
  | none => rfl
  | some c =>
      obtain ⟨s, rfl, -⟩ := Scale.exists_of_product?_eq_some found
      obtain rfl : t = s.token := by simpa using Lexeme.eq_token_of_ofToken_eq meaning
      exact absurd (by cases s <;> simp [Scale.token]) (h _ there)

/-- **What is spelled is read,** whatever follows it but a token that goes on, and as long as there
is room for its nesting. -/
theorem Spells.reads {level : Level α} {d d' : Nat} {used after : List String} {v : α}
    (h : Spells A limit d level used v) (room : LeavesNoLess limit d limit' d')
    (ends : ∀ t ∈ after.head?, t ∉ level.continuations) :
    Reads A limit' level d' (lexemes A (used ++ after)) (.ok (v, lexemes A after)) := by
  -- The operators between factors go on with what goes on with the operators between terms.
  have both (four : ∀ t ∈ after.head?, t ∉ ["+", "-", "*", "/"]) :
      EndsSums A (lexemes A after) ∧ EndsProducts A (lexemes A after) :=
    ⟨endsSums_of_notMem fun t first => by have := four t first; grind,
      endsProducts_of_notMem fun t first => by have := four t first; grind⟩
  rw [lexemes_append]
  cases level with
  | expression =>
      obtain ⟨e, rfl, -, value, shallow⟩ := h
      obtain ⟨sums, products⟩ := both ends
      exact e.reads value (room _ shallow) products (.sumsEnd sums)
  | sums x =>
      obtain ⟨ss, rfl, -, fold, shallow⟩ := h
      obtain ⟨sums, products⟩ := both ends
      exact ss.reads fold (room _ shallow) products (.sumsEnd sums)
  | term =>
      obtain ⟨t, rfl, -, value, shallow⟩ := h
      exact t.reads value (room _ shallow) (.productsEnd (endsProducts_of_notMem ends))
  | products x =>
      obtain ⟨ps, rfl, -, fold, shallow⟩ := h
      exact ps.reads fold (room _ shallow) (.productsEnd (endsProducts_of_notMem ends))
  | factor =>
      obtain ⟨f, rfl, -, value, shallow⟩ := h
      exact f.reads value (room _ shallow)

/-- What a walk to a value has passed is spelled by it. These tokens are the footprint of the walk:
it depends on them, and on one more that it does not take. -/
theorem Walks.spells {level : Level α} {d p q : Nat} {v : α}
    (h : Walks A limit tokens level d p (.ok v) q) (shallow : exceeds limit d = false) :
    ∃ used, tokens.drop p = used ++ tokens.drop q ∧ Spells A limit d level used v := by
  obtain ⟨used, after, split, rest, spelled⟩ := h.reads.exists_spells shallow rfl rfl
  rw [lexemes_injective A rest]
  exact ⟨used, split, spelled⟩

/-- A walk through tokens that spell a value ends behind them. It may start anywhere and at another
depth, as long as there is as much room for nesting. -/
theorem Spells.walks {level : Level α} {d d' p : Nat} {used after : List String} {v : α}
    (h : Spells A limit d level used v) (room : LeavesNoLess limit d limit' d')
    (ends : ∀ t ∈ after.head?, t ∉ level.continuations) (start : p ≤ tokens.length)
    (there : tokens.drop p = used ++ after) :
    Walks A limit' tokens level d' p (.ok v) (p + used.length) := by
  have given : lexemes A (used ++ after) = lexemes A (tokens.drop p) := by rw [there]
  obtain ⟨outcome, q, walk, same⟩ := (h.reads room ends).exists_walks given
  obtain ⟨rfl, rest⟩ := ok_eq_outcomeAt same
  obtain ⟨-, inside, -⟩ := walk.le_and_le_length start
  have lengths := congrArg List.length there
  have lengths' := congrArg List.length (lexemes_injective A rest)
  simp only [List.length_drop, List.length_append] at lengths lengths'
  obtain rfl : q = p + used.length := by omega
  exact walk

/-- The tokens between two positions, where they stand in other tokens too. Equal tokens at equal
distances are the same list. -/
theorem drop_eq_append_of_same {used : List String} {p q p' : Nat} (le : p ≤ q)
    (inside : q ≤ tokens.length) (split : tokens.drop p = used ++ tokens.drop q)
    (same : ∀ i < q - p, tokens'[p' + i]? = tokens[p + i]?) :
    tokens'.drop p' = used ++ tokens'.drop (p' + (q - p)) ∧ used.length = q - p := by
  have size : used.length = q - p := by
    have lengths := congrArg List.length split
    simp only [List.length_drop, List.length_append] at lengths
    omega
  refine ⟨List.ext_getElem? fun i => ?_, size⟩
  rw [List.getElem?_drop, List.getElem?_append]
  split
  · next before =>
      rw [same i (size ▸ before), ← List.getElem?_drop, split, List.getElem?_append_left before]
  · next behind =>
      rw [List.getElem?_drop]
      congr 1
      omega

/-- A value that is found where there is no room for nesting is found with any room. Such a walk
meets no sign and no group, so it never asks for the limit. -/
theorem Walks.of_no_room {level : Level α} {d p q : Nat} {outcome : Except Fault α} {v : α}
    (h : Walks A limit tokens level d p outcome q) (found : outcome = .ok v)
    (full : ∀ n, 0 < n → exceeds limit (d + n) = true) (limit' : Option Nat) (d' : Nat) :
    Walks A limit' tokens level d' p (.ok v) q := by
  induction h generalizing v with
  | expressionFault | sumsFault | termFault | productsFault | productsZero | factorEnd | signDeep
  | signFault | groupDeep | groupFault | groupOpen | other => cases found
  | expression _ _ first next => exact .expression (first rfl full) (next found full)
  | sumsEnd ends =>
      cases found
      exact .sumsEnd ends
  | sums seen _ _ first next => exact .sums seen (first rfl full) (next found full)
  | term _ _ first next => exact .term (first rfl full) (next found full)
  | productsEnd ends =>
      cases found
      exact .productsEnd ends
  | products seen _ combined _ first next =>
      exact .products seen (first rfl full) combined (next found full)
  | number seen =>
      cases found
      exact .number seen
  | sign _ shallow => cases (full signDepth (by decide)).symm.trans shallow
  | group _ shallow => cases (full groupDepth (by decide)).symm.trans shallow

/-- A value is found wherever else the tokens that were passed stand, if there is as much room for
nesting and no token behind them that goes on with the level. -/
theorem Walks.elsewhere {level : Level α} {d d' p p' q : Nat} {v : α}
    (h : Walks A limit tokens level d p (.ok v) q) (start : p ≤ tokens.length)
    (room : LeavesNoLess limit d limit' d') (start' : p' ≤ tokens'.length)
    (same : ∀ i < q - p, tokens'[p' + i]? = tokens[p + i]?)
    (ends : ∀ t ∈ tokens'[p' + (q - p)]?, t ∉ level.continuations) :
    Walks A limit' tokens' level d' p' (.ok v) (p' + (q - p)) := by
  obtain ⟨forward, inside, -⟩ := h.le_and_le_length start
  have moved {limit limit' : Option Nat} {d d' : Nat} (h : Walks A limit tokens level d p (.ok v) q)
      (room : LeavesNoLess limit d limit' d') (shallow : exceeds limit d = false) :
      Walks A limit' tokens' level d' p' (.ok v) (p' + (q - p)) := by
    obtain ⟨used, split, spelled⟩ := h.spells shallow
    obtain ⟨there, size⟩ := drop_eq_append_of_same forward inside split same
    rw [← List.head?_drop] at ends
    rw [← size] at ends there ⊢
    exact spelled.walks room ends start' there
  by_cases shallow : exceeds limit d = false
  · exact moved h room shallow
  · -- Only what is within a limit is spelled, so the walk is moved with the least limit there is.
    have full : ∀ n, 0 < n → exceeds limit (d + n) = true := by
      intro n _
      rw [← Bool.not_eq_false]
      exact fun within => shallow (exceeds_of_le (Nat.le_add_right d n) within)
    have bounded := h.of_no_room rfl full (some 0) 0
    exact (moved bounded (fun _ => id) rfl).of_no_room rfl (by simp [exceeds]) limit' d'

/-- **Calls move forward, and see no more than the token behind.** A call with the cursor among the
tokens or at their end does end, in one way. It reads what its level reads from the tokens at the
cursor, and leaves the cursor neither before its start nor past the end, even if it fails. A value
takes a token at least, unless it is that of an empty chain. The same value is read in the same
number of tokens wherever else the tokens that were passed stand, as long as there is as much room
for nesting, and no token behind them that goes on with the level. -/
theorem walks_forward_locally (A : Arithmetic α) (limit : Option Nat) (tokens : List String)
    (level : Level α) (d p : Nat) (start : p ≤ tokens.length) :
    (∃! ending : Except Fault α × Nat, Walks A limit tokens level d p ending.1 ending.2) ∧
    ∀ outcome q, Walks A limit tokens level d p outcome q →
      read A limit level d (lexemes A (tokens.drop p)) = outcomeAt A tokens outcome q ∧
      p ≤ q ∧ q ≤ tokens.length ∧
      ∀ v, outcome = .ok v → p + level.least ≤ q ∧
        ∀ (limit' : Option Nat) (tokens' : List String) (d' p' : Nat),
          LeavesNoLess limit d limit' d' → p' ≤ tokens'.length →
          (∀ i < q - p, tokens'[p' + i]? = tokens[p + i]?) →
          (∀ t ∈ tokens'[p' + (q - p)]?, t ∉ level.continuations) →
          Walks A limit' tokens' level d' p' (.ok v) (p' + (q - p)) := by
  constructor
  · obtain ⟨outcome, q, walk, -⟩ :=
      (reads_read A limit level d (lexemes A (tokens.drop p))).exists_walks rfl
    refine ⟨(outcome, q), walk, fun ending walk' => ?_⟩
    obtain ⟨outcomes, ends⟩ := walk'.unique walk
    exact Prod.ext outcomes ends
  · intro outcome q walk
    obtain ⟨forward, inside, took⟩ := walk.le_and_le_length start
    refine ⟨walk.reads.read_eq, forward, inside, fun v found => ⟨took v found, ?_⟩⟩
    subst found
    exact fun _ _ _ _ => walk.elsewhere start

/-- A group that is read behind a sign is read where it stands alone, before a token that is out of
place. -/
theorem walks_group_elsewhere : ∃ x,
    Walks Calculator.arithmetic (some Calculator.depthLimit) ["-", "(", "1", ")"] .factor 1 1
      (.ok x) 4 ∧
    Walks Calculator.arithmetic (some Calculator.depthLimit) ["(", "1", ")", "2"] .factor 0 0
      (.ok x) 3 := by
  obtain ⟨x, reads⟩ : ∃ x, Calculator.arithmetic.numeral? "1" = some x :=
    Option.isSome_iff_exists.1 (by decide +kernel)
  have one : Lexeme.ofToken Calculator.arithmetic "1" = .number "1" x :=
    Lexeme.ofToken_of_numeral? reads
  have closing : Lexeme.ofToken Calculator.arithmetic ")" = .closing := Lexeme.ofToken_closing _
  have number : peek Calculator.arithmetic ["-", "(", "1", ")"] 2 = some (.number "1" x) := by
    simp [peek, one]
  have walk : Walks Calculator.arithmetic (some Calculator.depthLimit) ["-", "(", "1", ")"]
      .factor 1 1 (.ok x) 4 := by
    refine .group (by simp [peek]) (by decide) (.expression (.term (.number number)
      (.productsEnd ?_)) (.sumsEnd ?_)) ?_
    all_goals simp [peek, closing, Arithmetic.sum?, Arithmetic.product?]
  obtain ⟨-, each⟩ := walks_forward_locally Calculator.arithmetic (some Calculator.depthLimit)
    ["-", "(", "1", ")"] .factor 1 1 (by decide)
  obtain ⟨-, -, -, value⟩ := each _ _ walk
  obtain ⟨-, elsewhere⟩ := value x rfl
  refine ⟨x, walk, elsewhere _ ["(", "1", ")", "2"] 0 0 ?_ (by decide) ?_ ?_⟩
  · intro n shallow
    exact exceeds_of_le (by omega) shallow
  · intro i before
    have : i < 3 := before
    interval_cases i <;> rfl
  · simp [Level.continuations]

end Abacus.Expression
