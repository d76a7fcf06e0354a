import Mathlib
import Abacus.Expression.Evaluate

/-!
# The grammar of expressions

The derivations of the grammar, apart from any way of finding them:

* an expression is a term and a chain of terms joined by `+` and `-`;
* a term is a factor and a chain of factors joined by `*` and `/`;
* a factor is a sign before a factor, an expression in parentheses, or a numeral.

A derivation yields the tokens at its leaves. Its value folds both kinds of chain from the left, and
its depth counts three for a group and one for a sign.

## Main definitions

* `Sign`, `Scale` — the operators of the two kinds of chain; signs stand before factors too.
* `Arithmetic.numeral?` — the number that a token denotes, if it is no symbol.
* `Expr`, `Sums`, `Term`, `Products`, `Factor` — the derivations.
* `yield`, `depth`, `value`, `Legible` of each — its tokens, its nesting, its value, and whether all
  its leaves are numerals.

## Main statements

* `Expr.eq_of_yield_eq` — the grammar is unambiguous.

## Design notes

A chain is kept in reading order, first operator first, so that its value is a fold with an
accumulator. Derivations hold tokens and no numbers: one derivation has a value in every arithmetic.
-/

namespace Abacus

variable {α : Type}

/-! ### Tokens and their meanings -/

/-- The six tokens that are symbols. -/
def Lexeme.symbols : List String := ["+", "-", "*", "/", "(", ")"]

/-- The number that a token denotes. A symbol denotes none, whatever the arithmetic reads. A symbol
is looked for first, and only what is none is read as a number. -/
def Arithmetic.numeral? (A : Arithmetic α) (token : String) : Option α :=
  if token ∈ Lexeme.symbols then none else A.read? token

namespace Lexeme

@[simp]
theorem ofToken_opening (A : Arithmetic α) : ofToken A "(" = .opening := by simp [ofToken]

@[simp]
theorem ofToken_closing (A : Arithmetic α) : ofToken A ")" = .closing := by simp [ofToken]

/-- A token is known by its meaning. So tokens and lexemes can be exchanged, as long as the lexemes
are those of tokens. -/
theorem eq_token_of_ofToken_eq {A : Arithmetic α} {t : String} {l : Lexeme α}
    (h : ofToken A t = l) : t = l.token := by
  rw [← h, token_ofToken]

theorem ofToken_of_notMem_symbols {A : Arithmetic α} {t : String} (h : t ∉ symbols) :
    ofToken A t = (A.read? t).elim (.word t) (.number t) := by
  simp only [symbols, List.mem_cons, List.not_mem_nil, or_false, not_or] at h
  simp only [ofToken, h, if_false]
  cases A.read? t <;> rfl

/-- The tokens that mean a number are the numerals. -/
theorem ofToken_eq_number_iff {A : Arithmetic α} {t u : String} {x : α} :
    ofToken A t = .number u x ↔ t = u ∧ A.numeral? t = some x := by
  constructor
  · intro meaning
    have same : t = u := eq_token_of_ofToken_eq meaning
    refine ⟨same, ?_⟩
    by_cases symbol : t ∈ symbols
    · simp only [symbols, List.mem_cons, List.not_mem_nil, or_false] at symbol
      rcases symbol with rfl | rfl | rfl | rfl | rfl | rfl <;> simp [ofToken] at meaning
    · rw [ofToken_of_notMem_symbols symbol] at meaning
      rw [Arithmetic.numeral?, if_neg symbol]
      cases reading : A.read? t <;> simp_all
  · rintro ⟨rfl, reading⟩
    rw [Arithmetic.numeral?] at reading
    split at reading
    · cases reading
    · next symbol =>
        rw [ofToken_of_notMem_symbols symbol, reading]
        rfl

theorem ofToken_of_numeral? {A : Arithmetic α} {t : String} {x : α} (h : A.numeral? t = some x) :
    ofToken A t = .number t x :=
  ofToken_eq_number_iff.2 ⟨rfl, h⟩

end Lexeme

namespace Expression

/-- The meanings of tokens, one by one. What a token means does not depend on where it stands;
whether a sign is an operator or belongs to a factor is up to the grammar. -/
def lexemes (A : Arithmetic α) (tokens : List String) : List (Lexeme α) :=
  tokens.map (Lexeme.ofToken A)

@[simp]
theorem lexemes_nil (A : Arithmetic α) : lexemes A [] = [] := rfl

@[simp]
theorem lexemes_cons (A : Arithmetic α) (token : String) (tokens : List String) :
    lexemes A (token :: tokens) = Lexeme.ofToken A token :: lexemes A tokens := rfl

@[simp]
theorem lexemes_append (A : Arithmetic α) (xs ys : List String) :
    lexemes A (xs ++ ys) = lexemes A xs ++ lexemes A ys :=
  List.map_append

/-! ### Operators -/

/-- The operators between terms, which are the signs before factors too. The same token is one or
the other by its place. -/
inductive Sign where
  | plus
  | minus
  deriving DecidableEq, Repr

/-- The operators between factors. -/
inductive Scale where
  | times
  | divide
  deriving DecidableEq, Repr

namespace Sign

/-- The token of a sign. -/
def token : Sign → String
  | plus => "+"
  | minus => "-"

/-- The lexeme of a sign. -/
def lexeme : Sign → Lexeme α
  | plus => .plus
  | minus => .minus

/-- What a sign does to the value of the factor after it. A plus sign does nothing at all, not even
to a zero. -/
def apply (A : Arithmetic α) : Sign → α → α
  | plus => id
  | minus => A.neg

/-- What a sign makes of the values of two terms. -/
def combine (A : Arithmetic α) : Sign → α → α → α
  | plus => A.add
  | minus => A.sub

@[simp]
theorem ofToken_token (A : Arithmetic α) (s : Sign) : Lexeme.ofToken A s.token = s.lexeme := by
  cases s <;> simp [Lexeme.ofToken, token, lexeme]

@[simp]
theorem token_lexeme (s : Sign) : (s.lexeme : Lexeme α).token = s.token := by
  cases s <;> rfl

@[simp]
theorem sum?_lexeme (A : Arithmetic α) (s : Sign) :
    A.sum? s.lexeme = some fun x y => .ok (s.combine A x y) := by
  cases s <;> rfl

@[simp]
theorem product?_lexeme (A : Arithmetic α) (s : Sign) : A.product? s.lexeme = none := by
  cases s <;> rfl

@[simp]
theorem sign?_lexeme (A : Arithmetic α) (s : Sign) : A.sign? s.lexeme = some (s.apply A) := by
  cases s <;> rfl

/-- Only signs join terms. -/
theorem exists_of_sum?_eq_some {A : Arithmetic α} {l : Lexeme α} {c} (h : A.sum? l = some c) :
    ∃ s : Sign, l = s.lexeme ∧ c = fun x y => .ok (s.combine A x y) := by
  cases l <;> simp only [Arithmetic.sum?, Option.some.injEq, reduceCtorEq] at h
  · exact ⟨plus, rfl, h.symm⟩
  · exact ⟨minus, rfl, h.symm⟩

end Sign

namespace Scale

/-- The token of an operator between factors. -/
def token : Scale → String
  | times => "*"
  | divide => "/"

/-- The lexeme of an operator between factors. -/
def lexeme : Scale → Lexeme α
  | times => .times
  | divide => .divide

/-- What an operator makes of the values of two factors. A zero does not divide, and what is a zero
is up to the arithmetic. -/
def combine (A : Arithmetic α) : Scale → α → α → Except Fault α
  | times, x, y => .ok (A.mul x y)
  | divide, x, y => if A.isZero y then .error .divisionByZero else .ok (A.div x y)

@[simp]
theorem ofToken_token (A : Arithmetic α) (s : Scale) : Lexeme.ofToken A s.token = s.lexeme := by
  cases s <;> simp [Lexeme.ofToken, token, lexeme]

@[simp]
theorem token_lexeme (s : Scale) : (s.lexeme : Lexeme α).token = s.token := by
  cases s <;> rfl

@[simp]
theorem sum?_lexeme (A : Arithmetic α) (s : Scale) : A.sum? s.lexeme = none := by
  cases s <;> rfl

@[simp]
theorem product?_lexeme (A : Arithmetic α) (s : Scale) :
    A.product? s.lexeme = some (s.combine A) := by
  cases s <;> rfl

@[simp]
theorem sign?_lexeme (A : Arithmetic α) (s : Scale) : A.sign? s.lexeme = none := by
  cases s <;> rfl

/-- Only the operators between factors join factors. -/
theorem exists_of_product?_eq_some {A : Arithmetic α} {l : Lexeme α} {c}
    (h : A.product? l = some c) : ∃ s : Scale, l = s.lexeme ∧ c = s.combine A := by
  cases l <;> simp only [Arithmetic.product?, Option.some.injEq, reduceCtorEq] at h
  · exact ⟨times, rfl, h.symm⟩
  · exact ⟨divide, rfl, h.symm⟩

/-- The only fault of an operator is a zero divisor. Numbers that get too large are values like
others. -/
theorem combine_eq_error_iff {A : Arithmetic α} {s : Scale} {x y : α} {fault : Fault} :
    s.combine A x y = .error fault ↔
      s = divide ∧ A.isZero y = true ∧ fault = .divisionByZero := by
  cases s with
  | times => simp [combine]
  | divide => by_cases zero : A.isZero y <;> simp [combine, zero, eq_comm]

end Scale

/-! ### The kinds of tokens -/

/-- The kinds of tokens, with their meanings. Every token is of one kind, wherever it stands. -/
inductive Means (A : Arithmetic α) : String → Lexeme α → Prop
  | sign (s : Sign) : Means A s.token s.lexeme
  | scale (s : Scale) : Means A s.token s.lexeme
  | opening : Means A "(" .opening
  | closing : Means A ")" .closing
  | number {t : String} {x : α} : A.numeral? t = some x → Means A t (.number t x)
  | word {t : String} : t ∉ Lexeme.symbols → A.numeral? t = none → Means A t (.word t)

/-- Every token is of one of the kinds. Cases on tokens are made by this, and not by comparing
strings. -/
theorem means_ofToken (A : Arithmetic α) (t : String) : Means A t (Lexeme.ofToken A t) := by
  by_cases symbol : t ∈ Lexeme.symbols
  · simp only [Lexeme.symbols, List.mem_cons, List.not_mem_nil, or_false] at symbol
    rcases symbol with rfl | rfl | rfl | rfl | rfl | rfl
    · exact (Sign.ofToken_token A .plus).symm ▸ .sign .plus
    · exact (Sign.ofToken_token A .minus).symm ▸ .sign .minus
    · exact (Scale.ofToken_token A .times).symm ▸ .scale .times
    · exact (Scale.ofToken_token A .divide).symm ▸ .scale .divide
    · exact (Lexeme.ofToken_opening A).symm ▸ .opening
    · exact (Lexeme.ofToken_closing A).symm ▸ .closing
  · cases reading : A.numeral? t with
    | some x => exact Lexeme.ofToken_of_numeral? reading ▸ .number reading
    | none =>
        rw [Lexeme.ofToken_of_notMem_symbols symbol]
        rw [Arithmetic.numeral?, if_neg symbol] at reading
        rw [reading]
        exact .word symbol (by rw [Arithmetic.numeral?, if_neg symbol, reading])

/-! ### Derivations -/

mutual

/-- An expression: a term and the terms that follow it. Trees are as the grammar has them, with
chains in place of binary nodes, so that a list of tokens is the yield of one tree at most. -/
inductive Expr where
  | chain (first : Term) (rest : Sums)

/-- The terms that follow a term, each after its sign. -/
inductive Sums where
  | nil
  | cons (sign : Sign) (next : Term) (rest : Sums)

/-- A term: a factor and the factors that follow it. -/
inductive Term where
  | chain (first : Factor) (rest : Products)

/-- The factors that follow a factor, each after its operator. -/
inductive Products where
  | nil
  | cons (scale : Scale) (next : Factor) (rest : Products)

/-- A factor: a sign before a factor, a group, or a numeral. Signs nest to the right, and bind
tighter than any operator. -/
inductive Factor where
  | signed (sign : Sign) (operand : Factor)
  | group (inner : Expr)
  | numeral (token : String)

end

mutual

/-- The tokens of an expression. Nothing is written that is not in the tree, and a group writes its
parentheses. -/
def Expr.yield : Expr → List String
  | .chain first rest => first.yield ++ rest.yield

/-- The tokens of the terms that follow a term. -/
def Sums.yield : Sums → List String
  | .nil => []
  | .cons sign next rest => sign.token :: (next.yield ++ rest.yield)

/-- The tokens of a term. -/
def Term.yield : Term → List String
  | .chain first rest => first.yield ++ rest.yield

/-- The tokens of the factors that follow a factor. -/
def Products.yield : Products → List String
  | .nil => []
  | .cons scale next rest => scale.token :: (next.yield ++ rest.yield)

/-- The tokens of a factor. -/
def Factor.yield : Factor → List String
  | .signed sign operand => sign.token :: operand.yield
  | .group inner => "(" :: (inner.yield ++ [")"])
  | .numeral token => [token]

end

mutual

/-- The nesting of an expression. It is that of its deepest factor: a chain does not nest, however
long it is. -/
def Expr.depth : Expr → Nat
  | .chain first rest => max first.depth rest.depth

/-- The nesting of the terms that follow a term. -/
def Sums.depth : Sums → Nat
  | .nil => 0
  | .cons _ next rest => max next.depth rest.depth

/-- The nesting of a term. -/
def Term.depth : Term → Nat
  | .chain first rest => max first.depth rest.depth

/-- The nesting of the factors that follow a factor. -/
def Products.depth : Products → Nat
  | .nil => 0
  | .cons _ next rest => max next.depth rest.depth

/-- The nesting of a factor: one for a pending sign, three for a group. These are the frames that
reading it has open at a time. -/
def Factor.depth : Factor → Nat
  | .signed _ operand => signDepth + operand.depth
  | .group inner => groupDepth + inner.depth
  | .numeral _ => 0

end

mutual

/-- The leaves of an expression are numerals. A tree with other leaves yields tokens as well, but
has no value. -/
def Expr.Legible (A : Arithmetic α) : Expr → Prop
  | .chain first rest => first.Legible A ∧ rest.Legible A

/-- The leaves of the terms that follow a term are numerals. -/
def Sums.Legible (A : Arithmetic α) : Sums → Prop
  | .nil => True
  | .cons _ next rest => next.Legible A ∧ rest.Legible A

/-- The leaves of a term are numerals. -/
def Term.Legible (A : Arithmetic α) : Term → Prop
  | .chain first rest => first.Legible A ∧ rest.Legible A

/-- The leaves of the factors that follow a factor are numerals. -/
def Products.Legible (A : Arithmetic α) : Products → Prop
  | .nil => True
  | .cons _ next rest => next.Legible A ∧ rest.Legible A

/-- The leaves of a factor are numerals. -/
def Factor.Legible (A : Arithmetic α) : Factor → Prop
  | .signed _ operand => operand.Legible A
  | .group inner => inner.Legible A
  | .numeral token => (A.numeral? token).isSome = true

end

mutual

/-- The value of an expression: its terms, folded from the left. There is none if a divisor is zero,
and that is the only way to have none for legible trees. -/
def Expr.value (A : Arithmetic α) : Expr → Except Fault α
  | .chain first rest =>
    match first.value A with
    | .error fault => .error fault
    | .ok x => rest.fold A x

/-- What the terms that follow make of the value before them. The next term is evaluated before
anything is added, so its fault is found first. -/
def Sums.fold (A : Arithmetic α) : Sums → α → Except Fault α
  | .nil, x => .ok x
  | .cons sign next rest, x =>
    match next.value A with
    | .error fault => .error fault
    | .ok y => rest.fold A (sign.combine A x y)

/-- The value of a term: its factors, folded from the left. -/
def Term.value (A : Arithmetic α) : Term → Except Fault α
  | .chain first rest =>
    match first.value A with
    | .error fault => .error fault
    | .ok x => rest.fold A x

/-- What the factors that follow make of the value before them, unless a divisor is zero. -/
def Products.fold (A : Arithmetic α) : Products → α → Except Fault α
  | .nil, x => .ok x
  | .cons scale next rest, x =>
    match next.value A with
    | .error fault => .error fault
    | .ok y =>
      match scale.combine A x y with
      | .error fault => .error fault
      | .ok z => rest.fold A z

/-- The value of a factor. -/
def Factor.value (A : Arithmetic α) : Factor → Except Fault α
  | .signed sign operand =>
    match operand.value A with
    | .error fault => .error fault
    | .ok x => .ok (sign.apply A x)
  | .group inner => inner.value A
  | .numeral token =>
    match A.numeral? token with
    | some x => .ok x
    | none => .error (.invalidToken token)

end

/-! ### Unambiguity -/

/-- A numeral is no symbol. -/
theorem notMem_symbols_of_isSome {A : Arithmetic α} {t : String}
    (h : (A.numeral? t).isSome = true) : t ∉ Lexeme.symbols := by
  intro symbol
  simp [Arithmetic.numeral?, symbol] at h

theorem Sign.token_injective : Function.Injective Sign.token := by
  intro s t h
  cases s <;> cases t <;> first | rfl | simp [Sign.token] at h

theorem Scale.token_injective : Function.Injective Scale.token := by
  intro s t h
  cases s <;> cases t <;> first | rfl | simp [Scale.token] at h

theorem Sign.token_mem_symbols (s : Sign) : s.token ∈ Lexeme.symbols := by
  cases s <;> decide

theorem Scale.token_mem_symbols (s : Scale) : s.token ∈ Lexeme.symbols := by
  cases s <;> decide

/-- The tokens do not go on with a sign. Then a chain of terms ends here. -/
def NoSign (tokens : List String) : Prop := ∀ s : Sign, tokens.head? ≠ some s.token

/-- The tokens do not go on with an operator between factors. Then a chain of factors ends here. -/
def NoScale (tokens : List String) : Prop := ∀ s : Scale, tokens.head? ≠ some s.token

theorem noScale_sign (s : Sign) (tokens : List String) : NoScale (s.token :: tokens) := by
  intro t h
  cases s <;> cases t <;> simp [Sign.token, Scale.token] at h

theorem noSign_nil : NoSign [] := fun _ => by simp

theorem noScale_nil : NoScale [] := fun _ => by simp

theorem noSign_closing (tokens : List String) : NoSign (")" :: tokens) := by
  intro s h
  cases s <;> simp [Sign.token] at h

theorem noScale_closing (tokens : List String) : NoScale (")" :: tokens) := by
  intro s h
  cases s <;> simp [Scale.token] at h

/-- What follows a chain of terms ends each term of the chain. Either a further term follows, after
its sign, or what follows the chain does. -/
theorem noScale_yield_append {ss : Sums} {rest : List String} (h : NoScale rest) :
    NoScale (ss.yield ++ rest) := by
  cases ss with
  | nil => simpa [Sums.yield] using h
  | cons sign next after => exact noScale_sign sign _

mutual

/-- A factor ends where it ends, whatever follows it. The first token tells which of its three forms
it has. -/
theorem Factor.eq_of_yield_append {A : Arithmetic α} (f g : Factor) {r s : List String}
    (hf : f.Legible A) (hg : g.Legible A) (same : f.yield ++ r = g.yield ++ s) :
    f = g ∧ r = s := by
  match f, g with
  | .signed a f, .signed b g =>
      simp only [Factor.yield, List.cons_append, List.cons.injEq] at same
      obtain ⟨rfl, rfl⟩ := Factor.eq_of_yield_append f g hf hg same.2
      exact ⟨by rw [Sign.token_injective same.1], rfl⟩
  | .group e, .group e' =>
      simp only [Factor.yield, List.cons_append, List.append_assoc, List.nil_append,
        List.cons.injEq, true_and] at same
      obtain ⟨rfl, tails⟩ := Expr.eq_of_yield_append e e' hf hg
        (noSign_closing r) (noScale_closing r) (noSign_closing s) (noScale_closing s) same
      exact ⟨rfl, (List.cons.inj tails).2⟩
  | .numeral t, .numeral u =>
      simp only [Factor.yield, List.cons_append, List.nil_append, List.cons.injEq] at same
      exact ⟨by rw [same.1], same.2⟩
  | .signed a _, .group _ =>
      cases a <;> simp [Factor.yield, Sign.token] at same
  | .group _, .signed a _ =>
      cases a <;> simp [Factor.yield, Sign.token] at same
  | .signed a _, .numeral t =>
      simp only [Factor.yield, List.cons_append, List.cons.injEq] at same
      exact absurd (same.1 ▸ a.token_mem_symbols) (notMem_symbols_of_isSome hg)
  | .numeral t, .signed a _ =>
      simp only [Factor.yield, List.cons_append, List.cons.injEq] at same
      exact absurd (same.1 ▸ a.token_mem_symbols) (notMem_symbols_of_isSome hf)
  | .group _, .numeral t =>
      simp only [Factor.yield, List.cons_append, List.cons.injEq] at same
      exact absurd (same.1 ▸ (by decide : "(" ∈ Lexeme.symbols)) (notMem_symbols_of_isSome hg)
  | .numeral t, .group _ =>
      simp only [Factor.yield, List.cons_append, List.cons.injEq] at same
      exact absurd (same.1 ▸ (by decide : "(" ∈ Lexeme.symbols)) (notMem_symbols_of_isSome hf)

/-- A chain of factors ends before the first token that is no operator between factors. Where it
goes on is seen at one token. -/
theorem Products.eq_of_yield_append {A : Arithmetic α} (ps qs : Products) {r s : List String}
    (hp : ps.Legible A) (hq : qs.Legible A) (hr : NoScale r) (hs : NoScale s)
    (same : ps.yield ++ r = qs.yield ++ s) : ps = qs ∧ r = s := by
  match ps, qs with
  | .nil, .nil => exact ⟨rfl, by simpa [Products.yield] using same⟩
  | .nil, .cons b g qs =>
      exact absurd (by rw [show r = _ from same]; rfl) (hr b)
  | .cons a f ps, .nil =>
      exact absurd (by rw [show s = _ from same.symm]; rfl) (hs a)
  | .cons a f ps, .cons b g qs =>
      simp only [Products.yield, List.cons_append, List.append_assoc, List.cons.injEq] at same
      obtain ⟨rfl, tails⟩ := Factor.eq_of_yield_append f g hp.1 hq.1 same.2
      obtain ⟨rfl, rest⟩ := Products.eq_of_yield_append ps qs hp.2 hq.2 hr hs tails
      exact ⟨by rw [Scale.token_injective same.1], rest⟩

/-- A term ends before the first token that is no operator between factors. -/
theorem Term.eq_of_yield_append {A : Arithmetic α} (t u : Term) {r s : List String}
    (ht : t.Legible A) (hu : u.Legible A) (hr : NoScale r) (hs : NoScale s)
    (same : t.yield ++ r = u.yield ++ s) : t = u ∧ r = s := by
  match t, u with
  | .chain f ps, .chain g qs =>
      simp only [Term.yield, List.append_assoc] at same
      obtain ⟨rfl, tails⟩ := Factor.eq_of_yield_append f g ht.1 hu.1 same
      obtain ⟨rfl, rest⟩ := Products.eq_of_yield_append ps qs ht.2 hu.2 hr hs tails
      exact ⟨rfl, rest⟩

/-- A chain of terms ends before the first token that is no operator. -/
theorem Sums.eq_of_yield_append {A : Arithmetic α} (ss us : Sums) {r s : List String}
    (ht : ss.Legible A) (hu : us.Legible A) (hr : NoSign r) (hr' : NoScale r) (hs : NoSign s)
    (hs' : NoScale s) (same : ss.yield ++ r = us.yield ++ s) : ss = us ∧ r = s := by
  match ss, us with
  | .nil, .nil => exact ⟨rfl, by simpa [Sums.yield] using same⟩
  | .nil, .cons b u us =>
      exact absurd (by rw [show r = _ from same]; rfl) (hr b)
  | .cons a t ss, .nil =>
      exact absurd (by rw [show s = _ from same.symm]; rfl) (hs a)
  | .cons a t ss, .cons b u us =>
      simp only [Sums.yield, List.cons_append, List.append_assoc, List.cons.injEq] at same
      obtain ⟨rfl, tails⟩ := Term.eq_of_yield_append t u ht.1 hu.1
        (noScale_yield_append hr') (noScale_yield_append hs') same.2
      obtain ⟨rfl, rest⟩ :=
        Sums.eq_of_yield_append ss us ht.2 hu.2 hr hr' hs hs' tails
      exact ⟨by rw [Sign.token_injective same.1], rest⟩

/-- An expression ends before the first token that is no operator. -/
theorem Expr.eq_of_yield_append {A : Arithmetic α} (e e' : Expr) {r s : List String}
    (he : e.Legible A) (he' : e'.Legible A) (hr : NoSign r) (hr' : NoScale r) (hs : NoSign s)
    (hs' : NoScale s) (same : e.yield ++ r = e'.yield ++ s) : e = e' ∧ r = s := by
  match e, e' with
  | .chain t ss, .chain u us =>
      simp only [Expr.yield, List.append_assoc] at same
      obtain ⟨rfl, tails⟩ := Term.eq_of_yield_append t u he.1 he'.1
        (noScale_yield_append hr') (noScale_yield_append hs') same
      obtain ⟨rfl, rest⟩ :=
        Sums.eq_of_yield_append ss us he.2 he'.2 hr hr' hs hs' tails
      exact ⟨rfl, rest⟩

end

/-- **The grammar is unambiguous.** Two derivations of the same tokens are the same. What a factor,
a term or an expression takes of the tokens is settled by what comes next, so both take the same. -/
theorem Expr.eq_of_yield_eq {A : Arithmetic α} {e e' : Expr} (he : e.Legible A)
    (he' : e'.Legible A) (same : e.yield = e'.yield) : e = e' :=
  (Expr.eq_of_yield_append e e' he he' noSign_nil noScale_nil noSign_nil noScale_nil
    (congrArg (· ++ []) same)).1

end Expression

end Abacus
