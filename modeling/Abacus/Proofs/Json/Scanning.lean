import Abacus.Proofs.Decimal.Notation
import Abacus.Proofs.Json.Grammar

/-!
# Scanning what the grammar spells

Each scalar of the grammar is one token. A string ends at the quote that closes it; a number or a
constant is a word, and ends where something follows that cannot go on a word.

## Main definitions

* `Json.EndsWord` — a word in front of the text ends there.

## Main statements

* `Json.Token.scan_string_append`, `Json.Token.scan_word_append` — the first token of a text.
* `Json.ofWord_int`, `Json.ofWord_float` — the scalars that numerals stand for.
-/

namespace Abacus.Json

/-! ### Strings -/

namespace Quoted

theorem hexValue?_isSome_of_readHex? {cs : List Char} {n : Nat} (h : Text.readHex? cs = some n) :
    ∀ c ∈ cs, (Text.hexValue? c).isSome = true := by
  induction cs using List.reverseRecOn generalizing n with
  | nil => simp
  | append_singleton cs c ih =>
      rw [Text.readHex?_append_singleton, Option.bind_eq_some_iff] at h
      obtain ⟨front, read, last⟩ := h
      obtain ⟨digit, value, -⟩ := Option.map_eq_some_iff.1 last
      refine List.forall_mem_append.2 ⟨ih read, ?_⟩
      simp [value]

/-- A hexadecimal digit does not close a string. -/
theorem unclosed_of_readHex? {cs : List Char} {n : Nat} (h : Text.readHex? cs = some n) :
    Unclosed cs := by
  have digits := hexValue?_isSome_of_readHex? h
  clear h
  induction cs with
  | nil => exact unclosed_nil
  | cons c cs ih =>
      have first : (Text.hexValue? c).isSome = true := digits c List.mem_cons_self
      have quote : c ≠ '"' := by
        rintro rfl
        exact absurd first (by decide)
      have backslash : c ≠ '\\' := by
        rintro rfl
        exact absurd first (by decide)
      exact (unclosed_singleton quote backslash).append
        (ih fun c member => digits c (List.mem_cons_of_mem _ member))

/-- No quote in the text of a string closes it. A quote is there only with a backslash that escapes
it. -/
theorem Spells.unclosed {units : List Nat} {text : List Char} (h : Spells units text) :
    Unclosed text := by
  induction h with
  | nil => exact unclosed_nil
  | plain quote backslash _ _ ih => exact (unclosed_singleton quote backslash).append ih
  | letter _ _ ih => exact (unclosed_backslash _).append ih
  | unit digits _ ih =>
      exact ((unclosed_backslash 'u').append (unclosed_of_readHex? digits)).append ih

/-- The code units of the text of a string. They are in the order of the text, escaped or not. -/
theorem Spells.units?_eq {units : List Nat} {text : List Char} (h : Spells units text) :
    units? text = some units := by
  induction h with
  | nil => rfl
  | plain quote backslash printed _ ih => rw [units?_cons backslash printed, ih, Option.map_some]
  | @letter c _ _ _ meant _ ih =>
      have escaped : c ≠ 'u' := by
        rintro rfl
        simp [ofLetter?] at meant
      rw [units?_backslash escaped meant, ih, Option.map_some]
  | unit digits _ ih => simp [units?, digits, ih]

end Quoted

namespace Token

/-- A string is one token. What follows it does not matter, not even another string. -/
theorem scan_string_append {s : String} {text : List Char} (h : SpellsString s text)
    (rest : List Char) : scan (text ++ rest) = .scalar (.str s) :: scan rest := by
  obtain ⟨body, value⟩ := h
  next units inner =>
  have closed : Quoted.close? (inner ++ '"' :: rest) = some (inner, rest) := by
    rw [body.unclosed]
    simp [Quoted.close?]
  have decoded : Quoted.decode? inner = some s.toList := by
    rw [Quoted.decode?, body.units?_eq, Option.map_some, value]
  have shape : '"' :: inner ++ ['"'] ++ rest = '"' :: (inner ++ '"' :: rest) := by simp
  rw [shape, scan]
  simp only [isSpace, Char.reduceBEq, Bool.or_self, Bool.false_eq_true, if_false, Char.reduceEq,
    if_true]
  split
  · next nothing => simp [closed] at nothing
  · next body' after found =>
      rw [closed] at found
      obtain ⟨rfl, rfl⟩ : inner = body' ∧ rest = after := by simpa using found
      simp [decoded]

end Token

/-! ### Words -/

/-- A word in front of the text ends there. Words are as long as can be, so this is what keeps them
apart from what follows. -/
def EndsWord (rest : List Char) : Prop := ∀ c ∈ rest.head?, isWordChar c = false

theorem endsWord_nil : EndsWord [] := by
  simp [EndsWord]

theorem endsWord_cons {c : Char} (h : isWordChar c = false) (rest : List Char) :
    EndsWord (c :: rest) := by
  simpa [EndsWord] using h

theorem not_isWordChar_of_isSpace {c : Char} (h : isSpace c = true) : isWordChar c = false := by
  simp only [isSpace, Bool.or_eq_true, beq_iff_eq] at h
  rcases h with ((rfl | rfl) | rfl) | rfl <;> rfl

theorem IsGap.endsWord_append {gap rest : List Char} (h : IsGap gap) (h' : EndsWord rest) :
    EndsWord (gap ++ rest) := by
  cases gap with
  | nil => exact h'
  | cons c gap => exact endsWord_cons (not_isWordChar_of_isSpace (h c List.mem_cons_self)) _

namespace Token

/-- A word is one token, if it stands for a scalar. It has to end where it does, or it would be a
longer word. -/
theorem scan_word_append {word rest : List Char} {v : Json} (nonempty : word ≠ [])
    (inside : ∀ c ∈ word, isWordChar c = true) (value : ofWord word = .ok v)
    (h : EndsWord rest) : scan (word ++ rest) = .scalar v :: scan rest := by
  cases word with
  | nil => exact absurd rfl nonempty
  | cons c cs =>
      have first : isWordChar c = true := inside c List.mem_cons_self
      have others : ∀ d ∈ cs, isWordChar d = true := fun d member =>
        inside d (List.mem_cons_of_mem c member)
      have other {d : Char} (apart : isWordChar d = false) : c ≠ d := by
        rintro rfl
        simp [first] at apart
      have noSpace : isSpace c = false := by
        by_contra space
        have := not_isWordChar_of_isSpace (Bool.not_eq_false _ ▸ space)
        simp [first] at this
      rw [List.cons_append, scan]
      simp only [noSpace, other (d := '[') rfl, other (d := ']') rfl, other (d := '\x7b') rfl,
        other (d := '\x7d') rfl, other (d := ',') rfl, other (d := ':') rfl, other (d := '"') rfl,
        first, Text.takeWhile_append_of_ends others h, Text.dropWhile_append_of_ends others h,
        value, if_true, if_false, Bool.false_eq_true]

end Token

/-! ### Numbers -/

theorem isWordChar_of_isNumeralChar {c : Char} (h : Numeral.IsNumeralChar c) :
    isWordChar c = true := by
  rcases h with digit | rfl | (rfl | rfl) | rfl | rfl
  · simp [isWordChar, Char.isAlphanum, digit]
  all_goals rfl

theorem isWordChar_of_mem_digits {ds : List Char} (h : Numeral.IsDigits ds) :
    ∀ c ∈ ds, isWordChar c = true :=
  fun c member => isWordChar_of_isNumeralChar (h.chars c member)

/-- A numeral is part of a word. -/
theorem isWordChar_of_mem_numeral {d : Decimal} {cs : List Char} (h : Numeral.Spells d cs) :
    ∀ c ∈ cs, isWordChar c = true :=
  fun c member => isWordChar_of_isNumeralChar (h.chars c member)

/-- A sign is part of the word behind it. -/
theorem isWordChar_of_mem_signed (negative : Bool) {cs : List Char}
    (h : ∀ c ∈ cs, isWordChar c = true) :
    ∀ c ∈ Binary64.writeSign negative ++ cs, isWordChar c = true := by
  refine List.forall_mem_append.2 ⟨?_, h⟩
  cases negative <;> simp [Binary64.writeSign, isWordChar]

/-- Digits without needless zeros are what the reader takes for a whole number. -/
theorem isWhole_eq_true {ds : List Char} (h : Numeral.IsWhole ds) : isWhole ds = true := by
  obtain ⟨⟨nonempty, digits⟩, zero⟩ := h
  have all : ds.all Char.isDigit = true := List.all_eq_true.2 digits
  fun_cases isWhole ds with
  | case1 => exact absurd rfl nonempty
  | case2 => rfl
  | case3 c cs notZero =>
      have first : c ≠ '0' := by
        rintro rfl
        exact notZero rfl (List.cons.inj (zero rfl)).2
      simpa [first] using all

/-- A word that begins with a digit, behind its sign, is a number. None of the names that are words
begins so. -/
theorem ofWord_of_isDigit {c : Char} (h : c.isDigit = true) (negative : Bool) (cs : List Char) :
    ofWord (Binary64.writeSign negative ++ c :: cs) = ofNumber negative (c :: cs) := by
  have other {d : Char} (apart : d.isDigit = false) : c ≠ d := by
    rintro rfl
    simp [h] at apart
  have minus : c ≠ '-' := other rfl
  have constant {word : String}
      (apart : (word.toList.dropWhile (· == '-')).head?.any Char.isDigit = false) :
      String.ofList (Binary64.writeSign negative ++ c :: cs) ≠ word := by
    rintro rfl
    cases negative <;> simp [Binary64.writeSign, minus, h] at apart
  unfold ofWord
  split
  · next same => exact absurd same (constant (by decide))
  · next same => exact absurd same (constant (by decide))
  · next same => exact absurd same (constant (by decide))
  · next same => exact absurd same (constant (by decide))
  · next same => exact absurd same (constant (by decide))
  · next same => exact absurd same (constant (by decide))
  · cases negative with
    | true => rfl
    | false =>
        have front : Binary64.writeSign false ++ c :: cs = c :: cs := rfl
        rw [front]
        split
        · next same => exact absurd (List.cons.inj same).1 minus
        · rfl

/-- The whole digits of a numeral end at the point. -/
theorem takeWhile_point {whole places fraction : List Char} (h : Numeral.IsDigits whole)
    (h' : Numeral.Fraction places fraction) : (whole ++ fraction).takeWhile (· != '.') = whole :=
  Text.takeWhile_append_of_ends (fun _ member => by simpa using h.ne_of_mem member rfl)
    (by cases h' <;> simp)

/-- The fraction of a numeral begins at the point. -/
theorem dropWhile_point {whole places fraction : List Char} (h : Numeral.IsDigits whole)
    (h' : Numeral.Fraction places fraction) :
    (whole ++ fraction).dropWhile (· != '.') = fraction :=
  Text.dropWhile_append_of_ends (fun _ member => by simpa using h.ne_of_mem member rfl)
    (by cases h' <;> simp)

/-- A numeral without a point and a power is an integer. -/
theorem ofNumber_whole {ds : List Char} (h : Numeral.IsWhole ds) (negative : Bool)
    (short : Decimal.digitCount (Decimal.ofDigits ds) ≤ Numeral.maxIntegerDigits) :
    ofNumber negative ds = .ok (.int (signed negative (Decimal.ofDigits ds))) := by
  have mantissa := Numeral.takeWhile_mantissa h.1 .none .none
  have power := Numeral.dropWhile_mantissa h.1 .none .none
  have whole := takeWhile_point h.1 .none
  have places := dropWhile_point h.1 .none
  simp only [List.append_nil] at mantissa power whole places
  rw [Decimal.digitCount, Decimal.digits_ofDigits h] at short
  unfold ofNumber
  dsimp only
  rw [mantissa, power, whole, places, isWhole_eq_true h, if_neg (by decide),
    if_pos (by decide), if_neg (Nat.not_lt.2 short)]
  rfl

/-- A numeral with a point or a power is a binary64 number. Its value is rounded, and infinite where
it is too large. -/
theorem ofNumber_numeral {d : Decimal} {cs : List Char} (h : Numeral.Spells d cs)
    (marked : ∃ c ∈ cs, c.isDigit = false) (negative : Bool) :
    ofNumber negative cs = .ok (.float (.ofDecimal negative d)) := by
  obtain ⟨whole, fraction, power⟩ := h
  next ds places point mark e =>
  have point' : (point == ['.']) = false := by
    cases fraction with
    | none => rfl
    | digits places => simpa using places.1
  have more : (point.isEmpty && mark.isEmpty) = false := by
    by_contra nothing
    obtain ⟨c, member, other⟩ := marked
    simp only [Bool.not_eq_false, Bool.and_eq_true, List.isEmpty_iff] at nothing
    rw [nothing.1, nothing.2, List.append_nil, List.append_nil] at member
    simp [whole.1.2 c member] at other
  unfold ofNumber
  dsimp only
  rw [Numeral.takeWhile_mantissa whole.1 fraction power,
    Numeral.dropWhile_mantissa whole.1 fraction power, takeWhile_point whole.1 fraction,
    dropWhile_point whole.1 fraction, Numeral.scientific?_append whole.1 fraction power,
    isWhole_eq_true whole, point', more]
  rfl

/-- The word of an integer. It has only digits behind its sign, which tells it from a binary64
number. -/
theorem ofWord_int {ds : List Char} (h : Numeral.IsWhole ds) (negative : Bool)
    (short : Decimal.digitCount (Decimal.ofDigits ds) ≤ Numeral.maxIntegerDigits) :
    ofWord (Binary64.writeSign negative ++ ds) =
      .ok (.int (signed negative (Decimal.ofDigits ds))) := by
  rw [← ofNumber_whole h negative short]
  obtain ⟨⟨nonempty, digits⟩, -⟩ := h
  cases ds with
  | nil => exact absurd rfl nonempty
  | cons c cs => exact ofWord_of_isDigit (digits c List.mem_cons_self) negative cs

/-- The word of a binary64 number. A mark among the digits, a point or an exponent, makes it one,
even if its value is whole. -/
theorem ofWord_float {d : Decimal} {cs : List Char} (h : Numeral.Spells d cs)
    (marked : ∃ c ∈ cs, c.isDigit = false) (negative : Bool) :
    ofWord (Binary64.writeSign negative ++ cs) = .ok (.float (.ofDecimal negative d)) := by
  rw [← ofNumber_numeral h marked negative]
  obtain ⟨⟨⟨nonempty, digits⟩, -⟩, -, -⟩ := h
  next ds _ _ _ _ =>
  cases ds with
  | nil => exact absurd rfl nonempty
  | cons c cs => exact ofWord_of_isDigit (digits c List.mem_cons_self) negative _

end Abacus.Json
