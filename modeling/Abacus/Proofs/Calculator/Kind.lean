import Abacus.Proofs.Calculator.Text

/-!
# Kinds of tokens

A strict scan looks at characters, the kinds are those of whole tokens, and the calculator reads
numerals. The three agree: a strict scan refuses a text because of its first token of unknown kind,
what is read as a number is of the kind of numbers, and what has a value has no token of unknown
kind.

## Main statements

* `TokenKind.of_eq_unknown_iff` — the tokens of unknown kind are the runs of characters of no known
  class.
* `Token.firstStray?_eq_none_iff`, `Token.firstStray?_of_unknown` — stray characters are those of
  tokens of unknown kind.
* `Calculator.strict_agrees_with_kinds` — scans, kinds and numerals agree.
-/

namespace Abacus

/-! ### The kinds of runs and symbols -/

namespace CharClass

/-- Digits and points are no symbols. -/
theorem notMem_symbols_of_isNumeric {c : Char} (h : isNumeric c = true) : c ∉ symbols := by
  intro symbol
  simp only [symbols, List.mem_cons, List.not_mem_nil, or_false] at symbol
  rcases symbol with rfl | rfl | rfl | rfl | rfl | rfl <;> cases h

theorem not_isOperator_of_notMem {c : Char} (h : c ∉ symbols) :
    isOperator c = false ∧ isParen c = false := by
  simpa [mem_symbols_iff] using h

end CharClass

namespace TokenKind

/-- Where no character is a symbol, the kind tells whether all are digits and points. -/
theorem of_eq_ite {t : String} (h : ∀ c ∈ t.toList, c ∉ CharClass.symbols) :
    of t = if t.toList ≠ [] ∧ ∀ c ∈ t.toList, CharClass.isNumeric c = true then .number
      else .unknown := by
  unfold of
  cases spelled : t.toList with
  | nil => simp
  | cons c cs =>
      rw [spelled] at h
      obtain ⟨noOperator, noParen⟩ := CharClass.not_isOperator_of_notMem (h c List.mem_cons_self)
      simp [noOperator, noParen]

/-- A string of digits and points is of the kind of numbers, wherever it comes from. -/
theorem of_eq_number {t : String} (nonempty : t.toList ≠ [])
    (h : ∀ c ∈ t.toList, CharClass.isNumeric c = true) : of t = .number := by
  rw [of_eq_ite fun c member => CharClass.notMem_symbols_of_isNumeric (h c member)]
  exact if_pos ⟨nonempty, h⟩

/-- **The tokens of unknown kind** are the runs of characters of no known class. Kinds are decided
by the whole token; for what a scan makes a token its first character would do. -/
theorem of_eq_unknown_iff {t : String} (h : Token.IsToken t) :
    of t = .unknown ↔ Token.IsRun .other t.toList := by
  constructor
  · intro unknown
    rcases h with ⟨c, symbol, rfl⟩ | run | run
    · simp only [CharClass.symbols, List.mem_cons, List.not_mem_nil, or_false] at symbol
      rcases symbol with rfl | rfl | rfl | rfl | rfl | rfl <;>
        exact absurd unknown (by decide)
    · have number : of t = .number := of_eq_number run.1 fun c member =>
        CharClass.isNumeric_of_eq_numeric (run.2 c member)
      rw [number] at unknown
      cases unknown
    · exact run
  · intro run
    have chars : ∀ c ∈ t.toList, CharClass.isNumeric c = false ∧ c ∉ CharClass.symbols :=
      fun c member => (CharClass.of_eq_other_iff.1 (run.2 c member)).2
    rw [of_eq_ite fun c member => (chars c member).2, if_neg]
    rintro ⟨nonempty, numeric⟩
    obtain ⟨c, member⟩ := List.exists_mem_of_ne_nil _ nonempty
    have clash := (chars c member).1
    rw [numeric c member] at clash
    cases clash

/-- Tokens of a known kind have no stray character. -/
theorem of_eq_unknown_of_mem {t : String} (h : Token.IsToken t) {c : Char} (member : c ∈ t.toList)
    (stray : CharClass.of c = .other) : of t = .unknown :=
  (of_eq_unknown_iff h).2 (h.isRun rfl member stray)

end TokenKind

/-! ### Strays and tokens of unknown kind -/

namespace Token

/-- The first stray character of a text, found in its tokens. -/
theorem firstStray?_eq (text : String) :
    firstStray? text = ((cut text).flatMap String.toList).find? fun c => CharClass.of c == .other :=
  (writes_cut text).find?_other_eq

/-- A text has no stray character if and only if none of its tokens is of unknown kind. A stray
character is in some token, and all of that token are strays. -/
theorem firstStray?_eq_none_iff {text : String} :
    firstStray? text = none ↔ ∀ t ∈ cut text, TokenKind.of t ≠ .unknown := by
  have tokens := (writes_cut text).isToken
  rw [firstStray?_eq, List.find?_eq_none]
  simp only [List.mem_flatMap, beq_iff_eq, forall_exists_index, and_imp]
  constructor
  · intro clean t among unknown
    obtain ⟨nonempty, run⟩ := (TokenKind.of_eq_unknown_iff (tokens t among)).1 unknown
    obtain ⟨c, member⟩ := List.exists_mem_of_ne_nil _ nonempty
    exact clean c t among member (run c member)
  · intro known c t among member stray
    exact known t among (TokenKind.of_eq_unknown_of_mem (tokens t among) member stray)

/-- The first stray character of a text is the first one of its first token of unknown kind. -/
theorem firstStray?_of_unknown {text : String} {before after : List String} {t : String}
    (split : cut text = before ++ t :: after) (known : ∀ u ∈ before, TokenKind.of u ≠ .unknown)
    (unknown : TokenKind.of t = .unknown) :
    ∃ c ∈ t.toList.head?, firstStray? text = some c := by
  have tokens := (writes_cut text).isToken
  simp only [split, List.mem_append, List.mem_cons] at tokens
  obtain ⟨nonempty, run⟩ :=
    (TokenKind.of_eq_unknown_iff (tokens t (.inr (.inl rfl)))).1 unknown
  have earlier : ((before.flatMap String.toList).find? fun c => CharClass.of c == .other) =
      none := by
    simp only [List.find?_eq_none, List.mem_flatMap, beq_iff_eq, forall_exists_index, and_imp]
    intro c u among member stray
    exact known u among (TokenKind.of_eq_unknown_of_mem (tokens u (.inl among)) member stray)
  cases spelled : t.toList with
  | nil => exact absurd spelled nonempty
  | cons c cs =>
      have stray : CharClass.of c = .other := run c (by simp [spelled])
      refine ⟨c, rfl, ?_⟩
      rw [firstStray?_eq, split, List.flatMap_append, List.find?_append, earlier,
        List.flatMap_cons, spelled]
      simp [stray]

end Token

namespace Numeral

/-- A number is of the kind of numbers, wherever it comes from. -/
theorem kind_of_value? {t : String} {x : Binary64} (h : value? t = some x) :
    TokenKind.of t = .number := by
  refine TokenKind.of_eq_number ?_ (isNumeric_of_value? h)
  intro empty
  rw [value?, empty] at h
  cases h

end Numeral

namespace Calculator

/-- **Scans, kinds and numerals agree.** A strict scan refuses a text if and only if some token of
the lenient one is of unknown kind. It names the first character of the first such token, and it is
the lenient scan where there is none. Whatever string is read as a number is of the kind of numbers,
and a text that has a value has no token of unknown kind. -/
theorem strict_agrees_with_kinds (text : String) :
    ∃ tokens, Token.scan false text = .ok tokens ∧
      ((∃ fault, Token.scan true text = .error fault) ↔
        ∃ t ∈ tokens, TokenKind.of t = .unknown) ∧
      (∀ before t after, tokens = before ++ t :: after →
        (∀ u ∈ before, TokenKind.of u ≠ .unknown) → TokenKind.of t = .unknown →
        ∃ c ∈ t.toList.head?, Token.scan true text = .error (.invalidCharacter c)) ∧
      ((∀ t ∈ tokens, TokenKind.of t ≠ .unknown) → Token.scan true text = .ok tokens) ∧
      (∀ (s : String) (x : Binary64), Numeral.value? s = some x → TokenKind.of s = .number) ∧
      ∀ x, outcomeOfText false text = .value x → ∀ t ∈ tokens, TokenKind.of t ≠ .unknown := by
  have clean : (∀ t ∈ Token.cut text, TokenKind.of t ≠ .unknown) →
      Token.scan true text = .ok (Token.cut text) := by
    intro known
    rw [Token.scan_true, Token.firstStray?_eq_none_iff.2 known]
  refine ⟨Token.cut text, Token.scan_false text, ⟨?_, ?_⟩, ?_, clean,
    fun s x => Numeral.kind_of_value?, ?_⟩
  · rintro ⟨fault, refused⟩
    by_contra known
    push Not at known
    rw [clean known] at refused
    cases refused
  · rintro ⟨t, among, unknown⟩
    cases stray : Token.firstStray? text with
    | none => exact absurd unknown (Token.firstStray?_eq_none_iff.1 stray t among)
    | some c => exact ⟨.invalidCharacter c, by rw [Token.scan_true, stray]⟩
  · intro before t after split known unknown
    obtain ⟨c, first, stray⟩ := Token.firstStray?_of_unknown split known unknown
    exact ⟨c, first, by rw [Token.scan_true, stray]⟩
  · intro x valued
    exact Token.firstStray?_eq_none_iff.1 (firstStray?_of_value valued)

/-- Of two words behind a number, the first is refused. -/
theorem strict_refuses_first_word :
    ∃ fault, Token.scan true "1 ab2c" = .error fault ∧ fault.token? = some "a" := by
  obtain ⟨tokens, scanned, -, refused, -⟩ := strict_agrees_with_kinds "1 ab2c"
  have cutTokens : Token.cut "1 ab2c" = ["1"] ++ "ab" :: ["2", "c"] := by decide
  rw [Token.scan_false, cutTokens, Except.ok.injEq] at scanned
  obtain ⟨c, first, failed⟩ :=
    refused ["1"] "ab" ["2", "c"] scanned.symm (by decide) (by decide)
  have letter : "ab".toList.head? = some 'a' := by decide
  rw [letter, Option.mem_some_iff] at first
  exact ⟨_, failed, by rw [← first]; rfl⟩

end Calculator

end Abacus
