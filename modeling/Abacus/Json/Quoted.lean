import Abacus.Text.Hex

/-!
# Quoted strings of JSON

Strings are written in ASCII: printable characters as they are, a quote and a backslash after a
backslash, five control characters by a letter, and every other character by the four hexadecimal
digits of its UTF-16 code units. Reading takes any JSON string; control characters may not stand
in one unescaped.

## Main definitions

* `Json.Quoted.encode` — the text between the quotes.
* `Json.Quoted.close?` — splits a text at the closing quote.
* `Json.Quoted.decode?` — the string that a text between quotes stands for.

## Main statements

* `Json.Quoted.close?_length` — what follows the closing quote is shorter than the text.
* `Json.Quoted.close?_encode_append` — the quote after a written string is the one that closes it.
* `Json.Quoted.decode?_encode` — a written string is read back.
-/

namespace Abacus.Json.Quoted

/-- An escaped code unit. -/
def unitEscape (unit : Nat) : List Char := '\\' :: 'u' :: Text.writeHex 4 unit

/-- The first code unit of a surrogate pair. -/
def highSurrogate (c : Char) : Nat := 0xD800 + (c.toNat - 0x10000) / 0x400

/-- The second code unit of a surrogate pair. -/
def lowSurrogate (c : Char) : Nat := 0xDC00 + (c.toNat - 0x10000) % 0x400

/-- The letter that stands for a control character after a backslash. Other control characters are
written as code units. -/
def letterOf? (c : Char) : Option Char :=
  if c = '\n' then some 'n'
  else if c = '\r' then some 'r'
  else if c = '\t' then some 't'
  else if c = '\x08' then some 'b'
  else if c = '\x0c' then some 'f'
  else none

/-- The character that a letter or a mark stands for after a backslash. A slash may have a
backslash, although none is ever written with one. -/
def ofLetter? (c : Char) : Option Char :=
  if c = 'n' then some '\n'
  else if c = 'r' then some '\r'
  else if c = 't' then some '\t'
  else if c = 'b' then some '\x08'
  else if c = 'f' then some '\x0c'
  else if c = '"' ∨ c = '\\' ∨ c = '/' then some c
  else none

/-- The text of a character between quotes. -/
def encodeChar (c : Char) : List Char :=
  if c = '"' ∨ c = '\\' then ['\\', c]
  else if 0x20 ≤ c.toNat ∧ c.toNat < 0x7F then [c]
  else
    match letterOf? c with
    | some letter => ['\\', letter]
    | none =>
      if c.toNat < 0x10000 then unitEscape c.toNat
      else unitEscape (highSurrogate c) ++ unitEscape (lowSurrogate c)

/-- The text of a string between quotes. -/
def encode (cs : List Char) : List Char := cs.flatMap encodeChar

/-- The text up to the closing quote, and what follows the quote. A character after a backslash
does not close. -/
def close? : List Char → Option (List Char × List Char)
  | [] => none
  | '"' :: rest => some ([], rest)
  | '\\' :: c :: rest => (close? rest).map fun (body, after) => ('\\' :: c :: body, after)
  | c :: rest => (close? rest).map fun (body, after) => (c :: body, after)

theorem close?_length {cs body rest : List Char} (h : close? cs = some (body, rest)) :
    rest.length < cs.length := by
  fun_induction close? cs generalizing body with
  | case1 => simp at h
  | case2 => grind
  | case3 c after ih =>
    obtain ⟨p, hp, heq⟩ := Option.map_eq_some_iff.1 h
    cases heq
    have := ih hp
    simp only [List.length_cons]
    omega
  | case4 c after _ _ ih =>
    obtain ⟨p, hp, heq⟩ := Option.map_eq_some_iff.1 h
    cases heq
    have := ih hp
    simp only [List.length_cons]
    omega

/-- The first code unit of a pair. -/
def isHigh (unit : Nat) : Bool := 0xD800 ≤ unit && unit < 0xDC00

/-- The second code unit of a pair. -/
def isLow (unit : Nat) : Bool := 0xDC00 ≤ unit && unit < 0xE000

/-- The character of a surrogate pair. -/
def ofSurrogates (high low : Nat) : Char :=
  Char.ofNat (0x10000 + (high - 0xD800) * 0x400 + (low - 0xDC00))

/-- The character of a code point or of a code unit in no pair. A lone surrogate is no character,
and U+FFFD stands in for it. A reader of code units keeps the surrogate, and the string then fails
to be encoded wherever it is printed; so nothing is claimed of what such a string shows. Texts that
have none are `Json.IsPaired`. -/
def ofUnit (unit : Nat) : Char :=
  if isHigh unit || isLow unit then '\uFFFD' else Char.ofNat unit

/-- The code points and escaped code units of a text between quotes. -/
def units? : List Char → Option (List Nat)
  | [] => some []
  | '\\' :: 'u' :: a :: b :: c :: d :: rest =>
    match Text.readHex? [a, b, c, d] with
    | none => none
    | some unit => (units? rest).map (unit :: ·)
  | '\\' :: c :: rest =>
    match ofLetter? c with
    | none => none
    | some meant => (units? rest).map (meant.toNat :: ·)
  | c :: rest => if c = '\\' ∨ c.toNat < 0x20 then none else (units? rest).map (c.toNat :: ·)

/-- The characters of code points and code units, with surrogate pairs joined. -/
def ofUnits : List Nat → List Char
  | [] => []
  | [unit] => [ofUnit unit]
  | unit :: next :: rest =>
    if isHigh unit && isLow next then ofSurrogates unit next :: ofUnits rest
    else ofUnit unit :: ofUnits (next :: rest)

/-- The string that a text between quotes stands for. There is none where an escape is no escape. -/
def decode? (cs : List Char) : Option (List Char) := (units? cs).map ofUnits

/-! ## Closing what was written -/

theorem close?_backslash (c : Char) (rest : List Char) :
    close? ('\\' :: c :: rest) =
      (close? rest).map fun (body, after) => ('\\' :: c :: body, after) := by
  simp [close?]

theorem close?_cons {c : Char} (hquote : c ≠ '"') (hbackslash : c ≠ '\\') (rest : List Char) :
    close? (c :: rest) = (close? rest).map fun (body, after) => (c :: body, after) := by
  rw [close?.eq_def]
  split <;> simp_all

/-- Text that no quote closes: what closes the text after it closes both. -/
def Unclosed (cs : List Char) : Prop :=
  ∀ rest, close? (cs ++ rest) = (close? rest).map fun (body, after) => (cs ++ body, after)

theorem unclosed_nil : Unclosed [] := by
  intro rest
  cases h : close? rest <;> simp [h]

theorem Unclosed.append {cs ds : List Char} (h : Unclosed cs) (h' : Unclosed ds) :
    Unclosed (cs ++ ds) := by
  intro rest
  rw [List.append_assoc, h, h']
  cases close? rest <;> simp

theorem unclosed_backslash (c : Char) : Unclosed ['\\', c] := close?_backslash c

theorem unclosed_singleton {c : Char} (hquote : c ≠ '"') (hbackslash : c ≠ '\\') :
    Unclosed [c] :=
  close?_cons hquote hbackslash

theorem unclosed_writeHex (count n : Nat) : Unclosed (Text.writeHex count n) := by
  induction count generalizing n with
  | zero => exact unclosed_nil
  | succ count ih =>
    have hdigit : ∀ d, d < 16 → Text.hexDigit d ≠ '"' ∧ Text.hexDigit d ≠ '\\' := by decide
    have hlast := hdigit (n % 16) (Nat.mod_lt n (by decide))
    exact (ih (n / 16)).append (unclosed_singleton hlast.1 hlast.2)

theorem unclosed_unitEscape (unit : Nat) : Unclosed (unitEscape unit) :=
  (unclosed_backslash 'u').append (unclosed_writeHex 4 unit)

theorem unclosed_encodeChar (c : Char) : Unclosed (encodeChar c) := by
  unfold encodeChar
  split
  · exact unclosed_backslash c
  split
  · rename_i h _
    exact unclosed_singleton (fun he => h (.inl he)) (fun he => h (.inr he))
  split
  · exact unclosed_backslash _
  split
  · exact unclosed_unitEscape _
  · exact (unclosed_unitEscape _).append (unclosed_unitEscape _)

theorem unclosed_encode (cs : List Char) : Unclosed (encode cs) := by
  induction cs with
  | nil => exact unclosed_nil
  | cons c cs ih => exact (unclosed_encodeChar c).append ih

/-- The quote after a written string is the one that closes it. Quotes in the string are escaped,
and so are backslashes that might escape the last. -/
theorem close?_encode_append (cs rest : List Char) :
    close? (encode cs ++ '"' :: rest) = some (encode cs, rest) := by
  rw [unclosed_encode]
  simp [close?]

/-! ## Reading what was written -/

/-- The UTF-16 code units of a character. -/
def unitsOf (c : Char) : List Nat :=
  if c.toNat < 0x10000 then [c.toNat] else [highSurrogate c, lowSurrogate c]

theorem units?_unitEscape_append {n : Nat} (h : n < 0x10000) (rest : List Char) :
    units? (unitEscape n ++ rest) = (units? rest).map (n :: ·) := by
  obtain ⟨a, b, c, d, hdigits⟩ : ∃ a b c d, Text.writeHex 4 n = [a, b, c, d] := by
    simp [Text.writeHex]
  have hread : Text.readHex? (Text.writeHex 4 n) = some n := Text.readHex?_writeHex h
  rw [hdigits] at hread
  simp [unitEscape, hdigits, units?, hread]

theorem units?_backslash {c meant : Char} (hunit : c ≠ 'u') (h : ofLetter? c = some meant)
    (rest : List Char) : units? ('\\' :: c :: rest) = (units? rest).map (meant.toNat :: ·) := by
  rw [units?.eq_def]
  split
  · simp_all
  · simp_all
  · simp_all
  · rename_i hother heq
    obtain ⟨rfl, rfl⟩ := List.cons.inj heq
    exact absurd rfl (hother c rest rfl)

theorem units?_cons {c : Char} (hbackslash : c ≠ '\\') (h : 0x20 ≤ c.toNat) (rest : List Char) :
    units? (c :: rest) = (units? rest).map (c.toNat :: ·) := by
  rw [units?.eq_def]
  split
  · simp_all
  · simp_all
  · simp_all
  · rename_i heq
    obtain ⟨rfl, rfl⟩ := List.cons.inj heq
    exact if_neg (not_or.2 ⟨hbackslash, Nat.not_lt.2 h⟩)

theorem ofLetter?_of_letterOf? {c letter : Char} (h : letterOf? c = some letter) :
    letter ≠ 'u' ∧ ofLetter? letter = some c ∧ c.toNat < 0x10000 := by
  unfold letterOf? at h
  repeat' split at h
  all_goals first | (cases h; subst_vars; decide) | cases h

theorem units?_encodeChar_append (c : Char) (rest : List Char) :
    units? (encodeChar c ++ rest) = (units? rest).map (unitsOf c ++ ·) := by
  have hvalid : c.toNat < 0xD800 ∨ 0xDFFF < c.toNat ∧ c.toNat < 0x110000 := c.valid
  unfold encodeChar unitsOf
  split
  · rename_i h
    have hmark : c ≠ 'u' ∧ ofLetter? c = some c ∧ c.toNat < 0x10000 := by
      rcases h with rfl | rfl <;> decide
    simpa [hmark.2.2] using units?_backslash hmark.1 hmark.2.1 rest
  split
  · rename_i h hplain
    simpa [show c.toNat < 0x10000 by omega] using
      units?_cons (fun he => h (.inr he)) hplain.1 rest
  split
  · rename_i hletter
    have hback := ofLetter?_of_letterOf? hletter
    simpa [hback.2.2] using units?_backslash hback.1 hback.2.1 rest
  split
  · rename_i hsmall
    exact units?_unitEscape_append hsmall rest
  · rw [List.append_assoc,
      units?_unitEscape_append (by unfold highSurrogate; omega),
      units?_unitEscape_append (by unfold lowSurrogate; omega)]
    cases units? rest <;> rfl

theorem units?_encode (cs : List Char) : units? (encode cs) = some (cs.flatMap unitsOf) := by
  induction cs with
  | nil => rfl
  | cons c cs ih =>
    rw [encode] at ih ⊢
    rw [List.flatMap_cons, units?_encodeChar_append, ih]
    rfl

theorem ofUnits_unitsOf_append (c : Char) (rest : List Nat) :
    ofUnits (unitsOf c ++ rest) = c :: ofUnits rest := by
  have hvalid : c.toNat < 0xD800 ∨ 0xDFFF < c.toNat ∧ c.toNat < 0x110000 := c.valid
  unfold unitsOf
  split
  · have hhigh : isHigh c.toNat = false := by
      simp [isHigh]
      omega
    have hlow : isLow c.toNat = false := by
      simp [isLow]
      omega
    have hchar : ofUnit c.toNat = c := by simp [ofUnit, hhigh, hlow, Char.ofNat_toNat]
    cases rest with
    | nil => simp [ofUnits, hchar]
    | cons next rest => simp [ofUnits, hhigh, hchar]
  · have hhigh : highSurrogate c < 0xDC00 ∧ 0xD800 ≤ highSurrogate c := by
      unfold highSurrogate
      omega
    have hlow : lowSurrogate c < 0xE000 ∧ 0xDC00 ≤ lowSurrogate c := by
      unfold lowSurrogate
      omega
    have hvalue : 0x10000 + (highSurrogate c - 0xD800) * 0x400 + (lowSurrogate c - 0xDC00) =
        c.toNat := by
      unfold highSurrogate lowSurrogate
      omega
    simp [ofUnits, isHigh, isLow, hhigh, hlow, ofSurrogates, hvalue, Char.ofNat_toNat]

/-- A written string is read back. Characters beyond the first plane are written as pairs of
surrogates, which are put together again. -/
@[simp]
theorem decode?_encode (cs : List Char) : decode? (encode cs) = some cs := by
  rw [decode?, units?_encode, Option.map_some]
  congr 1
  induction cs with
  | nil => rfl
  | cons c cs ih => rw [List.flatMap_cons, ofUnits_unitsOf_append, ih]

end Abacus.Json.Quoted
