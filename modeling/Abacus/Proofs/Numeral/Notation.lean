import Mathlib
import Abacus.Numeral.Free

/-!
# The notation of numerals

A numeral without its sign is digits, with a point and digits after them or not, and with a power of
ten after these or not. Reading finds the digits on both sides of the point and moves the point by
the power.

## Main definitions

* `Numeral.IsDigits` — one digit or more.
* `Numeral.Fraction`, `Numeral.Power` — what may follow the whole digits, with its meaning.
* `Numeral.Spells` — the numerals without needless zeros in front, with their decimals.
* `Numeral.IsNumeralChar` — their characters.

## Main statements

* `Numeral.scientific?_append` — the decimal that a numeral is read as.
-/

namespace Abacus

/-! ### Runs of a class -/

namespace Text

variable {p : Char → Bool} {run rest : List Char}

/-- The characters of a class at the front of a text, where the text goes on with another. -/
theorem takeWhile_append_of_ends (inside : ∀ c ∈ run, p c = true)
    (ends : ∀ c ∈ rest.head?, p c = false) : (run ++ rest).takeWhile p = run := by
  rw [List.takeWhile_append_of_pos inside]
  cases rest with
  | nil => simp
  | cons c rest => simp [ends c rfl]

/-- What follows the characters of a class at the front of a text. -/
theorem dropWhile_append_of_ends (inside : ∀ c ∈ run, p c = true)
    (ends : ∀ c ∈ rest.head?, p c = false) : (run ++ rest).dropWhile p = rest := by
  rw [List.dropWhile_append_of_pos inside]
  cases rest with
  | nil => simp
  | cons c rest => simp [ends c rfl]

end Text

namespace Numeral

/-- One digit or more. Only the ten digits of ASCII are meant. -/
def IsDigits (ds : List Char) : Prop := ds ≠ [] ∧ ∀ c ∈ ds, c.isDigit = true

/-- `Fraction places text`: the text is a point and the digits after it, or nothing. -/
inductive Fraction : List Char → List Char → Prop
  | none : Fraction [] []
  | digits {ds : List Char} : IsDigits ds → Fraction ds ('.' :: ds)

/-- The letters before a power of ten. -/
def IsMark (c : Char) : Prop := c = 'e' ∨ c = 'E'

/-- `Power e text`: the text multiplies a numeral by ten to the power `e`; it may be missing. -/
inductive Power : Int → List Char → Prop
  | none : Power 0 []
  | unsigned {mark : Char} {ds : List Char} :
      IsMark mark → IsDigits ds → Power (Decimal.ofDigits ds) (mark :: ds)
  | positive {mark : Char} {ds : List Char} :
      IsMark mark → IsDigits ds → Power (Decimal.ofDigits ds) (mark :: '+' :: ds)
  | negative {mark : Char} {ds : List Char} :
      IsMark mark → IsDigits ds → Power (-Decimal.ofDigits ds) (mark :: '-' :: ds)

/-- The digits of a whole number, without needless zeros in front. Zero has one digit. -/
def IsWhole (ds : List Char) : Prop := IsDigits ds ∧ (ds.head? = some '0' → ds = ['0'])

/-- `Spells d text`: the text is a numeral without a sign, and means the decimal. -/
inductive Spells : Decimal → List Char → Prop
  | intro {whole places fraction power : List Char} {e : Int} :
      IsWhole whole → Fraction places fraction → Power e power →
      Spells ⟨Decimal.ofDigits (whole ++ places), -places.length + e⟩ (whole ++ fraction ++ power)

/-! ### Digits -/

theorem IsDigits.ne_of_mem {ds : List Char} (h : IsDigits ds) {c d : Char} (member : c ∈ ds)
    (other : d.isDigit = false) : c ≠ d := by
  rintro rfl
  simp [h.2 c member] at other

theorem IsDigits.append {ds es : List Char} (h : IsDigits ds) (h' : ∀ c ∈ es, c.isDigit = true) :
    IsDigits (ds ++ es) :=
  ⟨by simp [h.1], List.forall_mem_append.2 ⟨h.2, h'⟩⟩

/-! ### Fractions -/

theorem Fraction.ends {places fraction : List Char} (h : Fraction places fraction) :
    ∀ c ∈ fraction.head?, c.isDigit = false := by
  cases h with
  | none => simp
  | digits _ => simp

/-- The characters of whole digits and a fraction are digits and the point. -/
theorem Fraction.chars {places fraction : List Char} (h : Fraction places fraction) :
    ∀ c ∈ fraction, c.isDigit = true ∨ c = '.' := by
  cases h with
  | none => simp
  | digits ds => exact List.forall_mem_cons.2 ⟨.inr rfl, fun c member => .inl (ds.2 c member)⟩

/-- Digits with or without a fraction are a plain numeral. -/
theorem plain?_append {whole places fraction : List Char} (h : IsDigits whole)
    (h' : Fraction places fraction) :
    plain? (whole ++ fraction) = some ⟨Decimal.ofDigits (whole ++ places), -places.length⟩ := by
  have digits := Text.takeWhile_append_of_ends h.2 h'.ends
  have rest := Text.dropWhile_append_of_ends h.2 h'.ends
  unfold plain?
  simp only [digits, rest]
  cases h' with
  | none => simp [h.1]
  | digits ds =>
      have all : places.all Char.isDigit = true := List.all_eq_true.2 ds.2
      simp [all, ds.1]

/-! ### Powers -/

theorem IsMark.not_isDigit {c : Char} (h : IsMark c) : c.isDigit = false := by
  rcases h with rfl | rfl <;> rfl

/-- A sign is only found where one is written. -/
theorem splitSign_of_isDigits {ds : List Char} (h : IsDigits ds) : splitSign ds = (false, ds) := by
  have minus : ∀ c ∈ ds, c ≠ '-' := fun c member => h.ne_of_mem member rfl
  have plus : ∀ c ∈ ds, c ≠ '+' := fun c member => h.ne_of_mem member rfl
  unfold splitSign
  split
  · exact absurd rfl (minus '-' (by simp))
  · exact absurd rfl (plus '+' (by simp))
  · rfl

/-- An exponent is digits behind its sign. -/
theorem exponent?_of_splitSign {cs ds : List Char} {negative : Bool} (h : IsDigits ds)
    (split : splitSign cs = (negative, ds)) {e : Int}
    (value : e = if negative then -(Decimal.ofDigits ds : Int) else Decimal.ofDigits ds) :
    exponent? cs = some e := by
  have all : ds.all Char.isDigit = true := List.all_eq_true.2 h.2
  unfold exponent?
  simp [split, h.1, all, value]

/-- A power that is not missing is a mark and an exponent. -/
theorem Power.eq_cons {e : Int} {power : List Char} (h : Power e power) :
    (e = 0 ∧ power = []) ∨
      ∃ mark cs, power = mark :: cs ∧ IsMark mark ∧ exponent? cs = some e := by
  cases h with
  | none => exact .inl ⟨rfl, rfl⟩
  | unsigned mark ds =>
      exact .inr ⟨_, _, rfl, mark, exponent?_of_splitSign ds (splitSign_of_isDigits ds) rfl⟩
  | positive mark ds => exact .inr ⟨_, _, rfl, mark, exponent?_of_splitSign ds rfl rfl⟩
  | negative mark ds => exact .inr ⟨_, _, rfl, mark, exponent?_of_splitSign ds rfl rfl⟩

/-- A power begins with its mark. -/
theorem Power.ends {e : Int} {power : List Char} (h : Power e power) :
    ∀ c ∈ power.head?, (!(c == 'e' || c == 'E')) = false := by
  rcases h.eq_cons with ⟨-, rfl⟩ | ⟨mark, cs, rfl, isMark, -⟩
  · simp
  · rcases isMark with rfl | rfl <;> simp

/-- What numerals are made of. No blank, bracket or quote is among these, so a numeral needs no
escapes anywhere. -/
def IsNumeralChar (c : Char) : Prop :=
  c.isDigit = true ∨ c = '.' ∨ IsMark c ∨ c = '+' ∨ c = '-'

theorem IsDigits.chars {ds : List Char} (h : IsDigits ds) : ∀ c ∈ ds, IsNumeralChar c :=
  fun c member => .inl (h.2 c member)

theorem Power.chars {e : Int} {power : List Char} (h : Power e power) :
    ∀ c ∈ power, IsNumeralChar c := by
  cases h with
  | none => simp
  | unsigned mark digits => exact List.forall_mem_cons.2 ⟨.inr (.inr (.inl mark)), digits.chars⟩
  | positive mark digits =>
      exact List.forall_mem_cons.2 ⟨.inr (.inr (.inl mark)),
        List.forall_mem_cons.2 ⟨.inr (.inr (.inr (.inl rfl))), digits.chars⟩⟩
  | negative mark digits =>
      exact List.forall_mem_cons.2 ⟨.inr (.inr (.inl mark)),
        List.forall_mem_cons.2 ⟨.inr (.inr (.inr (.inr rfl))), digits.chars⟩⟩

theorem Spells.chars {d : Decimal} {cs : List Char} (h : Spells d cs) :
    ∀ c ∈ cs, IsNumeralChar c := by
  obtain ⟨whole, fraction, power⟩ := h
  have middle : ∀ c ∈ _, IsNumeralChar c := fun c member =>
    (fraction.chars c member).imp_right Or.inl
  exact List.forall_mem_append.2 ⟨List.forall_mem_append.2 ⟨whole.1.chars, middle⟩, power.chars⟩

/-- There is no mark in digits and a fraction. -/
theorem not_isMark_of_mem {whole places fraction : List Char} (h : IsDigits whole)
    (h' : Fraction places fraction) {c : Char} (member : c ∈ whole ++ fraction) : ¬ IsMark c := by
  intro mark
  have noDigit := mark.not_isDigit
  rcases List.mem_append.1 member with inWhole | inFraction
  · simp [h.2 c inWhole] at noDigit
  · rcases h'.chars c inFraction with digit | rfl
    · simp [digit] at noDigit
    · rcases mark with other | other <;> cases other

/-- Up to the mark of its power, a numeral is digits and a fraction. -/
theorem takeWhile_mantissa {whole places fraction power : List Char} {e : Int}
    (h : IsDigits whole) (h' : Fraction places fraction) (h'' : Power e power) :
    (whole ++ fraction ++ power).takeWhile (fun c => !(c == 'e' || c == 'E')) =
      whole ++ fraction :=
  Text.takeWhile_append_of_ends
    (fun _ member => by simpa [IsMark] using not_isMark_of_mem h h' member) h''.ends

/-- From its mark on, a numeral is a power. -/
theorem dropWhile_mantissa {whole places fraction power : List Char} {e : Int}
    (h : IsDigits whole) (h' : Fraction places fraction) (h'' : Power e power) :
    (whole ++ fraction ++ power).dropWhile (fun c => !(c == 'e' || c == 'E')) = power :=
  Text.dropWhile_append_of_ends
    (fun _ member => by simpa [IsMark] using not_isMark_of_mem h h' member) h''.ends

/-- **The decimal that a numeral is read as,** in front of anything that does not go on with it. It
need not be in lowest terms: the places behind the point are all counted. -/
theorem scientific?_append {whole places fraction power : List Char} {e : Int}
    (h : IsDigits whole) (h' : Fraction places fraction) (h'' : Power e power) :
    scientific? (whole ++ fraction ++ power) =
      some ⟨Decimal.ofDigits (whole ++ places), -places.length + e⟩ := by
  unfold scientific?
  dsimp only
  rw [takeWhile_mantissa h h' h'', dropWhile_mantissa h h' h'', plain?_append h h']
  rcases h''.eq_cons with ⟨rfl, rfl⟩ | ⟨mark, cs, rfl, -, exponent⟩
  · simp [plain?_append h h']
  · simp [exponent]

/-- A numeral without a mark is a plain one. -/
theorem plain?_of_spells {d : Decimal} {cs : List Char} (h : Spells d cs)
    (noMark : ∀ c ∈ cs, ¬ IsMark c) : plain? cs = some d := by
  obtain ⟨whole, fraction, power⟩ := h
  rcases power.eq_cons with ⟨rfl, rfl⟩ | ⟨mark, cs, rfl, isMark, -⟩
  · rw [List.append_nil, Int.add_zero]
    exact plain?_append whole.1 fraction
  · exact absurd isMark (noMark mark (by simp))

end Numeral

end Abacus
