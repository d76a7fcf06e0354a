import Mathlib
import Abacus.Token

/-!
# Cutting and writing

A text is cut into tokens, and tokens are written into a text with blanks around them. The blanks
may be left out except between two tokens that would grow together. Cutting finds the tokens of
every such text and no others. It says at once what a scan finds in one pass over the characters.

## Main definitions

* `Token.pieces`, `Token.cut` — the maximal pieces of a text, as tokens.
* `Token.firstStray?` — the first character of no known class.
* `Token.IsRun`, `Token.IsToken` — runs of one class, and the strings that are tokens.
* `Token.Clash` — two tokens that would grow together.
* `Token.Writes` — a text writes tokens, in order, with blanks before, between and after them.

## Main statements

* `Token.pieces_append` — cutting does not look across a place where tokens end.
* `Token.cut_eq_iff_writes` — a text is cut into the tokens that it writes.
* `Token.writes_trim` — blanks at the ends of a text do not matter.
-/

namespace Abacus

/-! ### Classes of characters -/

namespace CharClass

/-- The symbols, as characters. -/
def symbols : List Char := ['+', '-', '*', '/', '(', ')']

/-- Characters of the class stand in one token with neighbours of the same class. Blanks stand in
none, and each symbol stands alone. -/
def joins : CharClass → Bool
  | numeric | other => true
  | blank | symbol => false

theorem of_eq_blank_iff {c : Char} : of c = .blank ↔ Text.isBlank c = true := by
  unfold of
  split
  · simp_all
  · split
    · simp_all
    · split <;> simp_all

/-- Of the characters that are no blanks, the digits and the point are numeric. -/
theorem isNumeric_of_eq_numeric {c : Char} (h : of c = .numeric) : isNumeric c = true := by
  unfold of at h
  split at h
  · cases h
  · split at h
    · assumption
    · split at h <;> cases h

theorem mem_symbols_iff {c : Char} : c ∈ symbols ↔ (isOperator c || isParen c) = true := by
  simp [symbols, isOperator, isParen, or_assoc]

theorem of_eq_symbol_iff {c : Char} : of c = .symbol ↔ c ∈ symbols := by
  constructor
  · intro h
    unfold of at h
    split at h
    · cases h
    · split at h
      · cases h
      · split at h
        · next symbol => exact mem_symbols_iff.2 symbol
        · cases h
  · intro h
    simp only [symbols, List.mem_cons, List.not_mem_nil, or_false] at h
    rcases h with rfl | rfl | rfl | rfl | rfl | rfl <;> decide

/-- What is of no known class is no blank, no digit, no point and no symbol. The classes are tried
in this order, but exclude one another. -/
theorem of_eq_other_iff {c : Char} :
    of c = .other ↔ Text.isBlank c = false ∧ isNumeric c = false ∧ c ∉ symbols := by
  rw [mem_symbols_iff]
  unfold of
  split
  · simp_all
  · split
    · simp_all
    · split <;> simp_all

end CharClass

namespace Token

/-! ### Cutting -/

/-- Neighbours that stand in one token: both digits or points, or both of no known class. Nothing
but the two characters has a say, which is why a text can be cut at once. -/
def inOneToken (a b : Char) : Bool :=
  CharClass.of a == CharClass.of b && (CharClass.of a).joins

/-- The maximal pieces of a text whose neighbours stand in one token, blanks dropped. A blank is a
piece of its own, as blanks do not join, until it is dropped. -/
def pieces (cs : List Char) : List (List Char) :=
  (cs.splitBy inOneToken).filter fun piece => !piece.all Text.isBlank

/-- The tokens of a text; none if it is empty or all blank. It is what a pass over the text comes
to, said without the pass. -/
def cut (text : String) : List String := (pieces text.toList).map String.ofList

/-- The first character that no token of an expression can hold. A strict scan stops there, whatever
comes before it. -/
def firstStray? (text : String) : Option Char :=
  text.toList.find? fun c => CharClass.of c == .other

/-! ### Tokens -/

/-- A run of characters of one class. It is not empty, but may be part of a longer run. -/
def IsRun (k : CharClass) (cs : List Char) : Prop := cs ≠ [] ∧ ∀ c ∈ cs, CharClass.of c = k

/-- The strings that are tokens: a symbol, a run of digits and points, or a run of characters of no
known class. -/
def IsToken (t : String) : Prop :=
  (∃ c ∈ CharClass.symbols, t = String.singleton c) ∨
  IsRun .numeric t.toList ∨ IsRun .other t.toList

/-- Two tokens that would grow together: both are runs of the same class. A text that writes them
has a blank between. -/
def Clash (t u : String) : Prop :=
  (IsRun .numeric t.toList ∧ IsRun .numeric u.toList) ∨
  (IsRun .other t.toList ∧ IsRun .other u.toList)

/-- `Writes tokens text`: the text consists of the tokens, in order, with blanks before, between and
after them. Only tokens that would grow together must have a blank between them. -/
inductive Writes : List String → List Char → Prop
  /-- After the last token there are only blanks. -/
  | nil {gap} : (∀ c ∈ gap, Text.isBlank c = true) → Writes [] gap
  /-- Blanks, a token, and what follows it. -/
  | cons {gap t tokens rest} :
      (∀ c ∈ gap, Text.isBlank c = true) → IsToken t →
      (∀ u ∈ tokens.head?, Clash t u → ∃ c ∈ rest.head?, Text.isBlank c = true) →
      Writes tokens rest → Writes (t :: tokens) (gap ++ t.toList ++ rest)

theorem inOneToken_iff {a b : Char} :
    inOneToken a b = true ↔ ∃ k : CharClass, k.joins = true ∧ CharClass.of a = k ∧
      CharClass.of b = k := by
  simp only [inOneToken, Bool.and_eq_true, beq_iff_eq]
  constructor
  · rintro ⟨same, joins⟩
    exact ⟨_, joins, rfl, same.symm⟩
  · rintro ⟨k, joins, rfl, same⟩
    exact ⟨same.symm, joins⟩

theorem inOneToken_comm (a b : Char) : inOneToken a b = inOneToken b a := by
  rw [Bool.eq_iff_iff, inOneToken_iff, inOneToken_iff]
  exact exists_congr fun k => and_congr_right fun _ => and_comm

theorem IsRun.isChain {k : CharClass} (joins : k.joins = true) {cs : List Char} (h : IsRun k cs) :
    cs.IsChain fun a b => inOneToken a b = true := by
  refine (List.pairwise_of_forall_mem_list fun a ha b hb => ?_).isChain
  exact inOneToken_iff.2 ⟨k, joins, h.2 a ha, h.2 b hb⟩

/-- The two classes of runs, in one. -/
theorem isToken_of_isRun {k : CharClass} (joins : k.joins = true) {t : String}
    (run : IsRun k t.toList) : IsToken t := by
  cases k with
  | numeric => exact .inr (.inl run)
  | other => exact .inr (.inr run)
  | blank | symbol => cases joins

theorem clash_iff {t u : String} :
    Clash t u ↔ ∃ k : CharClass, k.joins = true ∧ IsRun k t.toList ∧ IsRun k u.toList := by
  constructor
  · rintro (⟨run, run'⟩ | ⟨run, run'⟩)
    · exact ⟨.numeric, rfl, run, run'⟩
    · exact ⟨.other, rfl, run, run'⟩
  · rintro ⟨k, joins, run, run'⟩
    cases k with
    | numeric => exact .inl ⟨run, run'⟩
    | other => exact .inr ⟨run, run'⟩
    | blank | symbol => cases joins

/-- A token is not empty, it has no blanks, and its neighbours stand in one token. -/
theorem IsToken.chars {t : String} (h : IsToken t) :
    t.toList ≠ [] ∧ (∀ c ∈ t.toList, Text.isBlank c = false) ∧
      t.toList.IsChain fun a b => inOneToken a b = true := by
  have noBlank {k : CharClass} (other : k ≠ .blank) (run : IsRun k t.toList) :
      ∀ c ∈ t.toList, Text.isBlank c = false := by
    intro c member
    rw [Bool.eq_false_iff, ne_eq, ← CharClass.of_eq_blank_iff, run.2 c member]
    exact other
  rcases h with ⟨c, symbol, rfl⟩ | run | run
  · rw [← CharClass.of_eq_symbol_iff] at symbol
    simp only [String.toList_singleton]
    refine ⟨by simp, ?_, .singleton c⟩
    simp [Bool.eq_false_iff, ← CharClass.of_eq_blank_iff, symbol]
  · exact ⟨run.1, noBlank (by decide) run, run.isChain rfl⟩
  · exact ⟨run.1, noBlank (by decide) run, run.isChain rfl⟩

/-- Characters of a token that stand in one token make it a run. One character tells the class of
the whole. -/
theorem IsToken.isRun {t : String} (h : IsToken t) {k : CharClass} (joins : k.joins = true)
    {c : Char} (member : c ∈ t.toList) (kind : CharClass.of c = k) : IsRun k t.toList := by
  rcases h with ⟨d, symbol, rfl⟩ | run | run
  · rw [← CharClass.of_eq_symbol_iff] at symbol
    rw [String.toList_singleton, List.mem_singleton] at member
    rw [← kind, member, symbol] at joins
    cases joins
  · have same := run.2 c member
    rw [kind] at same
    exact same ▸ run
  · have same := run.2 c member
    rw [kind] at same
    exact same ▸ run

/-! ### Cutting is local -/

/-- Cutting does not look across a place where tokens end. So a text can be cut part by part, which
carries all that follows. -/
theorem pieces_append {xs ys : List Char}
    (h : ∀ x ∈ xs.getLast?, ∀ y ∈ ys.head?, inOneToken x y = false) :
    pieces (xs ++ ys) = pieces xs ++ pieces ys := by
  rw [pieces, List.splitBy_append h, List.filter_append]
  rfl

/-- A blank stands in no token. -/
theorem inOneToken_of_isBlank_left {a : Char} (h : Text.isBlank a = true) (b : Char) :
    inOneToken a b = false := by
  rw [Bool.eq_false_iff, ne_eq, inOneToken_iff]
  rintro ⟨k, joins, rfl, -⟩
  rw [CharClass.of_eq_blank_iff.2 h] at joins
  cases joins

theorem inOneToken_of_isBlank_right {b : Char} (h : Text.isBlank b = true) (a : Char) :
    inOneToken a b = false := by
  rw [inOneToken_comm, inOneToken_of_isBlank_left h]

/-- Blanks are cut into nothing. -/
theorem pieces_of_isBlank {gap : List Char} (h : ∀ c ∈ gap, Text.isBlank c = true) :
    pieces gap = [] := by
  rw [pieces, List.filter_eq_nil_iff]
  intro piece member
  have within : ∀ c ∈ piece, Text.isBlank c = true := by
    intro c inPiece
    refine h c ?_
    rw [← List.flatten_splitBy inOneToken gap]
    exact List.mem_flatten_of_mem member inPiece
  simpa using within

theorem pieces_blank_append {gap : List Char} (h : ∀ c ∈ gap, Text.isBlank c = true)
    (rest : List Char) : pieces (gap ++ rest) = pieces rest := by
  rw [pieces_append, pieces_of_isBlank h, List.nil_append]
  intro x last y _
  exact inOneToken_of_isBlank_left (h x (List.mem_of_mem_getLast? last)) y

theorem pieces_append_blank {gap : List Char} (h : ∀ c ∈ gap, Text.isBlank c = true)
    (before : List Char) : pieces (before ++ gap) = pieces before := by
  rw [pieces_append, pieces_of_isBlank h, List.append_nil]
  intro x _ y first
  exact inOneToken_of_isBlank_right (h y (List.mem_of_mem_head? first)) x

/-- A token is cut into itself. This is where tokens and pieces meet. -/
theorem IsToken.pieces_toList {t : String} (h : IsToken t) : pieces t.toList = [t.toList] := by
  obtain ⟨nonempty, noBlank, chain⟩ := h.chars
  obtain ⟨c, member⟩ := List.exists_mem_of_ne_nil _ nonempty
  rw [pieces, List.splitBy_of_isChain nonempty chain]
  refine List.filter_eq_self.2 fun piece only => ?_
  rw [List.mem_singleton.1 only]
  simpa using ⟨c, member, noBlank c member⟩

/-! ### What is written is found -/

/-- A text that begins with no blank begins with the first token that it writes. What follows the
token is a text for the other tokens, set apart from it where they would grow together. -/
theorem Writes.exists_first {tokens : List String} {text : List Char} (h : Writes tokens text)
    {c : Char} (first : c ∈ text.head?) (noBlank : Text.isBlank c = false) :
    ∃ t others rest, tokens = t :: others ∧ text = t.toList ++ rest ∧ IsToken t ∧ c ∈ t.toList ∧
      (∀ u ∈ others.head?, Clash t u → ∃ d ∈ rest.head?, Text.isBlank d = true) ∧
      Writes others rest := by
  cases h with
  | nil blank =>
      have := blank c (List.mem_of_mem_head? first)
      simp [this] at noBlank
  | @cons gap t tokens rest blank token apart written =>
      cases gap with
      | cons d gap =>
          obtain rfl : d = c := by simpa using first
          simp [blank d (by simp)] at noBlank
      | nil =>
          refine ⟨t, tokens, rest, rfl, rfl, token, ?_, apart, written⟩
          cases spelled : t.toList with
          | nil => exact absurd spelled token.chars.1
          | cons d cs =>
              rw [spelled] at first
              obtain rfl : d = c := by simpa using first
              simp

/-- A token and the text after it do not stand in one token. -/
theorem inOneToken_of_writes {t : String} {tokens : List String} {rest : List Char}
    (token : IsToken t)
    (apart : ∀ u ∈ tokens.head?, Clash t u → ∃ c ∈ rest.head?, Text.isBlank c = true)
    (written : Writes tokens rest) :
    ∀ x ∈ t.toList.getLast?, ∀ y ∈ rest.head?, inOneToken x y = false := by
  intro x last y first
  by_contra together
  rw [Bool.not_eq_false, inOneToken_iff] at together
  obtain ⟨k, joins, kindX, kindY⟩ := together
  have noBlank : Text.isBlank y = false := by
    rw [Bool.eq_false_iff, ne_eq, ← CharClass.of_eq_blank_iff, kindY]
    rintro rfl
    cases joins
  obtain ⟨u, others, _, rfl, -, token', member, -⟩ := written.exists_first first noBlank
  have clash : Clash t u := clash_iff.2 ⟨k, joins,
    token.isRun joins (List.mem_of_mem_getLast? last) kindX, token'.isRun joins member kindY⟩
  obtain ⟨c, first', blank⟩ := apart u rfl clash
  have same : y = c := Option.mem_unique first first'
  rw [← same, noBlank] at blank
  cases blank

/-- A text is cut into the tokens that it writes. It goes from token to token, as no piece reaches
over the end of one. -/
theorem Writes.pieces_eq {tokens : List String} {text : List Char} (h : Writes tokens text) :
    pieces text = tokens.map String.toList := by
  induction h with
  | nil blank => exact pieces_of_isBlank blank
  | @cons gap t tokens rest blank token apart written ih =>
      rw [List.append_assoc, pieces_blank_append blank,
        pieces_append (inOneToken_of_writes token apart written), token.pieces_toList, ih]
      rfl

/-! ### Every text writes tokens -/

/-- A blank may be put in front. -/
theorem Writes.blank_cons {tokens : List String} {text : List Char} (h : Writes tokens text)
    {c : Char} (blank : Text.isBlank c = true) : Writes tokens (c :: text) := by
  cases h with
  | nil blanks => exact .nil (List.forall_mem_cons.2 ⟨blank, blanks⟩)
  | cons blanks token apart written =>
      exact .cons (List.forall_mem_cons.2 ⟨blank, blanks⟩) token apart written

/-- A text without characters writes no tokens. -/
theorem Writes.eq_nil {tokens : List String} (h : Writes tokens []) : tokens = [] := by
  generalize empty : ([] : List Char) = text at h
  cases h with
  | nil => rfl
  | cons _ token =>
      have := token.chars.1
      simp_all

/-- A character that does not stand in one token with the next one is a token of its own. -/
theorem Writes.singleton_cons {tokens : List String} {text : List Char} (h : Writes tokens text)
    {c : Char} (noBlank : Text.isBlank c = false)
    (new : ∀ y ∈ text.head?, inOneToken c y = false) :
    Writes (String.singleton c :: tokens) (c :: text) := by
  have token : IsToken (String.singleton c) := by
    cases kind : CharClass.of c with
    | blank => simp [CharClass.of_eq_blank_iff.1 kind] at noBlank
    | symbol => exact .inl ⟨c, CharClass.of_eq_symbol_iff.1 kind, rfl⟩
    | numeric => exact .inr (.inl (by simp [IsRun, kind]))
    | other => exact .inr (.inr (by simp [IsRun, kind]))
  have apart : ∀ u ∈ tokens.head?, Clash (String.singleton c) u →
      ∃ y ∈ text.head?, Text.isBlank y = true := by
    intro u next clash
    cases text with
    | nil => simp [h.eq_nil] at next
    | cons y text =>
        refine ⟨y, rfl, ?_⟩
        by_contra visible
        obtain ⟨v, others, _, rfl, -, -, member, -⟩ :=
          h.exists_first rfl (Bool.eq_false_iff.2 visible)
        obtain rfl : v = u := by simpa using next
        obtain ⟨k, joins, run, run'⟩ := clash_iff.1 clash
        have together : inOneToken c y = true :=
          inOneToken_iff.2 ⟨k, joins, run.2 c (by simp), run'.2 y member⟩
        simp [new y rfl] at together
  have noGap : ∀ d ∈ ([] : List Char), Text.isBlank d = true := by simp
  simpa using Writes.cons noGap token apart h

/-- A character that stands in one token with the next one joins the token that begins there. It is
put in front of that token, which stays a token. -/
theorem Writes.exists_grow {tokens : List String} {text : List Char} (h : Writes tokens text)
    {c y : Char} (first : y ∈ text.head?) (together : inOneToken c y = true) :
    ∃ tokens', Writes tokens' (c :: text) := by
  obtain ⟨k, joins, kindC, kindY⟩ := inOneToken_iff.1 together
  have noBlank : Text.isBlank y = false := by
    by_contra blank
    simp [inOneToken_of_isBlank_right (by simpa using blank)] at together
  obtain ⟨t, others, rest, rfl, rfl, token, member, apart, written⟩ := h.exists_first first noBlank
  have run := token.isRun joins member kindY
  have longer : IsRun k (String.ofList (c :: t.toList)).toList := by
    simpa [IsRun, kindC] using run.2
  have apart' : ∀ u ∈ others.head?, Clash (String.ofList (c :: t.toList)) u →
      ∃ d ∈ rest.head?, Text.isBlank d = true := by
    intro u next clash
    obtain ⟨k', joins', grown, run'⟩ := clash_iff.1 clash
    obtain rfl : k = k' := kindC.symm.trans (grown.2 c (by simp))
    exact apart u next (clash_iff.2 ⟨k, joins, run, run'⟩)
  have noGap : ∀ d ∈ ([] : List Char), Text.isBlank d = true := by simp
  refine ⟨String.ofList (c :: t.toList) :: others, ?_⟩
  simpa using Writes.cons noGap (isToken_of_isRun joins longer) apart' written

/-- Every text writes some tokens. They are built from the end of the text, one character at a
time. -/
theorem exists_writes (text : List Char) : ∃ tokens, Writes tokens text := by
  induction text with
  | nil => exact ⟨[], .nil (by simp)⟩
  | cons c text ih =>
      obtain ⟨tokens, written⟩ := ih
      by_cases blank : Text.isBlank c = true
      · exact ⟨tokens, written.blank_cons blank⟩
      · by_cases new : ∀ y ∈ text.head?, inOneToken c y = false
        · exact ⟨_, written.singleton_cons (Bool.eq_false_iff.2 blank) new⟩
        · push Not at new
          obtain ⟨y, first, together⟩ := new
          exact written.exists_grow first (by simpa using together)

/-- **A text is cut into the tokens that it writes,** and into no others. -/
theorem cut_eq_iff_writes {text : String} {tokens : List String} :
    cut text = tokens ↔ Writes tokens text.toList := by
  have found {tokens : List String} (h : Writes tokens text.toList) : cut text = tokens := by
    rw [cut, h.pieces_eq, List.map_map]
    simp
  constructor
  · rintro rfl
    obtain ⟨tokens, written⟩ := exists_writes text.toList
    rwa [found written]
  · exact found

theorem writes_cut (text : String) : Writes (cut text) text.toList := cut_eq_iff_writes.1 rfl

theorem Writes.isToken {tokens : List String} {text : List Char} (h : Writes tokens text) :
    ∀ t ∈ tokens, IsToken t := by
  induction h with
  | nil => simp
  | cons _ token _ _ ih => exact List.forall_mem_cons.2 ⟨token, ih⟩

/-- Blanks are of a known class. -/
theorem find?_other_of_isBlank {gap : List Char} (h : ∀ c ∈ gap, Text.isBlank c = true) :
    (gap.find? fun c => CharClass.of c == .other) = none := by
  simp only [List.find?_eq_none, beq_iff_eq]
  intro c member
  simp [CharClass.of_eq_blank_iff.2 (h c member)]

/-- Every character that is no blank stands in a token. So nothing of a text is lost but its
blanks. -/
theorem Writes.exists_mem {tokens : List String} {text : List Char} (h : Writes tokens text)
    {c : Char} (member : c ∈ text) (noBlank : Text.isBlank c = false) :
    ∃ t ∈ tokens, c ∈ t.toList := by
  induction h with
  | nil blank => simp [blank c member] at noBlank
  | @cons gap t tokens rest blank token apart written ih =>
      simp only [List.mem_append] at member
      rcases member with (inGap | inToken) | inRest
      · simp [blank c inGap] at noBlank
      · exact ⟨t, List.mem_cons_self, inToken⟩
      · obtain ⟨u, among, inToken⟩ := ih inRest
        exact ⟨u, List.mem_cons_of_mem t among, inToken⟩

/-- Only blank texts are cut into nothing. The empty text is one of these. -/
theorem cut_eq_nil_iff {text : String} :
    cut text = [] ↔ ∀ c ∈ text.toList, Text.isBlank c = true := by
  rw [cut_eq_iff_writes]
  constructor
  · intro written c member
    by_contra noBlank
    obtain ⟨t, among, -⟩ := written.exists_mem member (Bool.eq_false_iff.2 noBlank)
    cases among
  · exact .nil

/-- The first stray character of a text is that of its tokens. So two texts that write the same
tokens are refused for the same character. -/
theorem Writes.find?_other_eq {tokens : List String} {text : List Char} (h : Writes tokens text) :
    (text.find? fun c => CharClass.of c == .other) =
      (tokens.flatMap String.toList).find? fun c => CharClass.of c == .other := by
  induction h with
  | nil blank => exact find?_other_of_isBlank blank
  | cons blank _ _ _ ih =>
      rw [List.find?_append, List.find?_append, find?_other_of_isBlank blank, ih,
        List.flatMap_cons, List.find?_append]
      rfl

/-! ### Blanks at the ends -/

/-- Trimming takes characters of the class from the two ends. -/
theorem exists_append_trimBoth (drop : Char → Bool) (cs : List Char) :
    ∃ lead trail, cs = lead ++ Text.trimBoth drop cs ++ trail ∧
      (∀ c ∈ lead, drop c = true) ∧ ∀ c ∈ trail, drop c = true := by
  refine ⟨cs.takeWhile drop, ((cs.dropWhile drop).reverse.takeWhile drop).reverse, ?_,
    fun c => List.mem_takeWhile_imp, fun c member => ?_⟩
  · rw [Text.trimBoth, List.append_assoc, ← List.reverse_append, List.takeWhile_append_dropWhile,
      List.reverse_reverse, List.takeWhile_append_dropWhile]
  · exact List.mem_takeWhile_imp (List.mem_reverse.1 member)

/-- Blanks at the ends leave the tokens as they are. -/
theorem writes_trim (text : String) : Writes (cut text) (Text.trim text).toList := by
  obtain ⟨lead, trail, split, blank, blank'⟩ := exists_append_trimBoth Text.isBlank text.toList
  have same : pieces text.toList = pieces (Text.trimBoth Text.isBlank text.toList) := by
    conv_lhs => rw [split]
    rw [pieces_append_blank blank', pieces_blank_append blank]
  refine cut_eq_iff_writes.1 ?_
  rw [cut, cut, same, Text.trim, String.toList_ofList]

end Token

end Abacus
