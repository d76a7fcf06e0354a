import Mathlib
import Abacus.Proofs.Decimal.Notation
import Abacus.Proofs.Token.Cut

/-!
# The notation of integers

An integer is written in decimal digits of any script, with a sign in front or not, with single
underscores between digits or not, and with blanks around. Reading takes these texts and no others,
and gives the number that the digits stand for, as long as there are not too many of them.

## Main definitions

* `Numeral.Grouped` — digits of any script, with single underscores between them.
* `Numeral.IsSign` — a sign and its factor.
* `Numeral.SpellsInteger` — the texts of integers.

## Main statements

* `Numeral.SpellsInteger.unique` — a text has one meaning.
* `Numeral.integer?_eq_some_iff` — the integers that are read.
-/

namespace Abacus

/-! ### Trimming -/

namespace Text

variable {drop : Char → Bool} {lead core trail : List Char}

/-- A text between characters of a class, which it neither starts nor ends with. -/
theorem trimBoth_append (front : ∀ c ∈ lead, drop c = true) (back : ∀ c ∈ trail, drop c = true)
    (first : ∀ c ∈ core.head?, drop c = false) (last : ∀ c ∈ core.getLast?, drop c = false) :
    trimBoth drop (lead ++ core ++ trail) = core := by
  by_cases nonempty : core = []
  · have every : ∀ c ∈ lead ++ trail, drop c = true := List.forall_mem_append.2 ⟨front, back⟩
    rw [nonempty, List.append_nil, trimBoth, List.dropWhile_eq_nil_iff.2 every]
    rfl
  · have start : ∀ c ∈ (core ++ trail).head?, drop c = false := by
      rwa [List.head?_append_of_ne_nil _ nonempty]
    have behind : ∀ c ∈ trail.reverse, drop c = true := by simpa using back
    have stop : ∀ c ∈ core.reverse.head?, drop c = false := by rwa [List.head?_reverse]
    rw [trimBoth, List.append_assoc, dropWhile_append_of_ends front start, List.reverse_append,
      dropWhile_append_of_ends behind stop, List.reverse_reverse]

/-! ### Digits of all scripts -/

variable {c : Char} {v : Nat}

/-- A digit stands its value behind the zero of its script. -/
theorem exists_zero_of_digitValue? (h : digitValue? c = some v) :
    ∃ z ∈ zeroDigits, v < 10 ∧ c.toNat = z + v := by
  obtain ⟨z, found, rfl⟩ := Option.map_eq_some_iff.1 h
  have within : z ≤ c.toNat ∧ c.toNat < z + 10 := by simpa using List.find?_some found
  exact ⟨z, List.mem_of_find?_eq_some found, by omega, by omega⟩

theorem digitValue?_lt (h : digitValue? c = some v) : v < 10 := by
  obtain ⟨_, -, small, -⟩ := exists_zero_of_digitValue? h
  exact small

/-- No digit is a blank. -/
theorem isBlank_of_digitValue? (h : digitValue? c = some v) : isBlank c = false := by
  obtain ⟨z, member, small, place⟩ := exists_zero_of_digitValue? h
  have apart : ∀ z ∈ zeroDigits, ∀ run ∈ blanks.runs, z + 9 < run.1 ∨ run.2 < z := by decide
  rw [isBlank, Bool.eq_false_iff, ne_eq, CharSet.contains_iff]
  rintro ⟨run, inside, low, high⟩
  have := apart z member run inside
  omega

/-- The ASCII digits are digits. -/
theorem digitValue?_of_isDigit (h : c.isDigit = true) :
    digitValue? c = some (Decimal.digitValue c) := by
  have range : 48 ≤ c.toNat ∧ c.toNat ≤ 57 := Char.isDigit_iff_toNat.1 h
  have within : (decide (0x30 ≤ c.toNat) && decide (c.toNat < 0x30 + 10)) = true := by
    simp only [Bool.and_eq_true, decide_eq_true_eq]
    omega
  rw [digitValue?, zeroDigits, List.find?_cons, within]
  rfl

theorem digitValue?_digitChar (h : v < 10) : digitValue? (Nat.digitChar v) = some v := by
  revert v
  decide

end Text

namespace Numeral

variable {c : Char} {cs ds ps : List Char} {v : Nat} {vs : List Nat} {n : Int} {count : Nat}

/-! ### The texts of integers -/

/-- `Grouped values text`: the text is decimal digits of any script that have these values, and
single underscores may stand between them. -/
inductive Grouped : List Nat → List Char → Prop
  | digit {c : Char} {v : Nat} : Text.digitValue? c = some v → Grouped [v] [c]
  | next {c : Char} {v : Nat} {vs : List Nat} {cs : List Char} :
      Text.digitValue? c = some v → Grouped vs cs → Grouped (v :: vs) (c :: cs)
  | apart {c : Char} {v : Nat} {vs : List Nat} {cs : List Char} :
      Text.digitValue? c = some v → Grouped vs cs → Grouped (v :: vs) (c :: '_' :: cs)

/-- `IsSign factor text`: the text is a sign, which may be missing, and stands for the factor. -/
inductive IsSign : Int → List Char → Prop
  | missing : IsSign 1 []
  | plus : IsSign 1 ['+']
  | minus : IsSign (-1) ['-']

/-- `SpellsInteger n count text`: the text is an integer in so many digits, with blanks around. -/
inductive SpellsInteger : Int → Nat → List Char → Prop
  | intro {lead sign digits trail : List Char} {factor : Int} {values : List Nat} :
      (∀ c ∈ lead, isMargin c = true) → IsSign factor sign → Grouped values digits →
      (∀ c ∈ trail, isMargin c = true) →
      SpellsInteger (factor * (Nat.ofDigits 10 values.reverse : Nat)) values.length
        (lead ++ (sign ++ digits) ++ trail)

/-! ### Grouped digits -/

theorem Grouped.ne_nil (h : Grouped vs cs) : cs ≠ [] := by
  cases h <;> exact List.cons_ne_nil _ _

theorem Grouped.values_ne_nil (h : Grouped vs cs) : vs ≠ [] := by
  cases h <;> exact List.cons_ne_nil _ _

theorem Grouped.lt (h : Grouped vs cs) : ∀ v ∈ vs, v < 10 := by
  induction h with
  | digit value => simpa using Text.digitValue?_lt value
  | next value _ ih => exact List.forall_mem_cons.2 ⟨Text.digitValue?_lt value, ih⟩
  | apart value _ ih => exact List.forall_mem_cons.2 ⟨Text.digitValue?_lt value, ih⟩

/-- Grouped digits start with a digit. -/
theorem Grouped.exists_cons (h : Grouped vs cs) :
    ∃ c v rest, cs = c :: rest ∧ Text.digitValue? c = some v := by
  cases h with
  | digit value => exact ⟨_, _, _, rfl, value⟩
  | next value _ => exact ⟨_, _, _, rfl, value⟩
  | apart value _ => exact ⟨_, _, _, rfl, value⟩

/-- Grouped digits end with a digit. -/
theorem Grouped.last (h : Grouped vs cs) :
    ∀ c ∈ cs.getLast?, ∃ v, Text.digitValue? c = some v := by
  induction h with
  | digit value => simpa using ⟨_, value⟩
  | next _ rest ih => rwa [List.getLast?_cons_of_ne_nil rest.ne_nil]
  | apart _ rest ih =>
      rwa [List.getLast?_cons_of_ne_nil (List.cons_ne_nil _ _),
        List.getLast?_cons_of_ne_nil rest.ne_nil]

/-- The number that a run of digits denotes, in positional notation. -/
theorem ofDigits_eq (ds : List Char) :
    Decimal.ofDigits ds = Nat.ofDigits 10 (ds.map Decimal.digitValue).reverse := by
  induction ds using List.reverseRecOn with
  | nil => rfl
  | append_singleton ds c ih =>
      rw [Decimal.ofDigits_append_singleton, ih, List.map_append, List.reverse_append]
      simp [Nat.ofDigits_cons, Nat.add_comm]

/-! ### Plain digits -/

@[simp] theorem plainDigits_nil : plainDigits [] = [] := rfl

theorem plainDigits_cons_of_some (h : Text.digitValue? c = some v) (cs : List Char) :
    plainDigits (c :: cs) = Nat.digitChar v :: plainDigits cs := by
  have plain : ∀ v < 10, Char.ofNat (48 + v) = Nat.digitChar v := by decide
  simp [plainDigits, h, plain v (Text.digitValue?_lt h)]

theorem plainDigits_cons_of_none (h : Text.digitValue? c = none) (cs : List Char) :
    plainDigits (c :: cs) = c :: plainDigits cs := by
  simp [plainDigits, h]

/-- Replacing digits changes no character's value as a digit. -/
theorem exists_of_plainDigits_eq_cons (h : plainDigits cs = c :: ps) :
    ∃ d rest, cs = d :: rest ∧ Text.digitValue? d = Text.digitValue? c ∧
      (Text.digitValue? c = none → d = c) ∧ plainDigits rest = ps := by
  cases cs with
  | nil => cases h
  | cons d rest =>
      refine ⟨d, rest, rfl, ?_⟩
      cases value : Text.digitValue? d with
      | some v =>
          rw [plainDigits_cons_of_some value] at h
          cases h
          simp [Text.digitValue?_digitChar (Text.digitValue?_lt value)]
      | none =>
          rw [plainDigits_cons_of_none value] at h
          cases h
          exact ⟨value.symm, fun _ => rfl, rfl⟩

/-- Digits that are grouped as ASCII digits are grouped so in their scripts. -/
theorem Grouped.of_plainDigits (h : Grouped vs ps) (h' : plainDigits cs = ps) : Grouped vs cs := by
  induction h generalizing cs with
  | digit value =>
      obtain ⟨d, rest, rfl, same, -, ends⟩ := exists_of_plainDigits_eq_cons h'
      obtain rfl : rest = [] := by simpa [plainDigits] using ends
      exact .digit (same.trans value)
  | next value _ ih =>
      obtain ⟨d, rest, rfl, same, -, more⟩ := exists_of_plainDigits_eq_cons h'
      exact .next (same.trans value) (ih more)
  | apart value _ ih =>
      obtain ⟨d, rest, rfl, same, -, more⟩ := exists_of_plainDigits_eq_cons h'
      obtain ⟨e, behind, rfl, -, mark, beyond⟩ := exists_of_plainDigits_eq_cons more
      -- No digit becomes an underscore, so the text has one here as well.
      obtain rfl := mark (by decide)
      exact .apart (same.trans value) (ih beyond)

/-! ### Underscores -/

theorem ungroup_nil : ungroup [] = some [] := rfl

/-- What happens to the first character of a text, as a matter of the character and of the two
behind it. No other proof looks into the function. -/
theorem ungroup_cons_eq (c : Char) (cs : List Char) :
    ungroup (c :: cs) =
      if c = '_' then none
      else if cs.head? = some '_' then
        if c.isDigit && cs.tail.head?.any Char.isDigit then (ungroup cs.tail).map (c :: ·) else none
      else (ungroup cs).map (c :: ·) := by
  by_cases own : c = '_'
  · subst own
    simp [ungroup]
  · cases cs with
    | nil => simp [ungroup, own]
    | cons d rest =>
        by_cases next : d = '_'
        · subst next
          cases rest <;> simp [ungroup, own]
        · simp [ungroup, own, next]

/-- A character that no underscore follows stays. -/
theorem ungroup_cons (other : c ≠ '_') (next : cs.head? ≠ some '_') :
    ungroup (c :: cs) = (ungroup cs).map (c :: ·) := by
  rw [ungroup_cons_eq, if_neg other, if_neg next]

/-- An underscore between two digits goes. -/
theorem ungroup_cons_underscore {d : Char} (h : c.isDigit = true) (h' : d.isDigit = true) :
    ungroup (c :: '_' :: d :: cs) = (ungroup (d :: cs)).map (c :: ·) := by
  have other : c ≠ '_' := by
    rintro rfl
    cases h
  rw [ungroup_cons_eq, if_neg other]
  simp [h, h']

/-- A character that is no digit stays in front of what has no stray underscore. -/
theorem ungroup_cons_of_not_isDigit (h : c.isDigit = false) (other : c ≠ '_') :
    ungroup (c :: cs) = (ungroup cs).map (c :: ·) := by
  by_cases next : cs.head? = some '_'
  · obtain ⟨rest, rfl⟩ := List.head?_eq_some_iff.1 next
    simp [ungroup_cons_eq, other, h]
  · exact ungroup_cons other next

theorem isDigit_digitChar (h : v < 10) : (Nat.digitChar v).isDigit = true := by
  revert v
  decide

/-- Grouped digits still start with a digit if it is replaced by the ASCII one. -/
theorem Grouped.exists_plainDigits (h : Grouped vs cs) :
    ∃ v ps, plainDigits cs = Nat.digitChar v :: ps ∧ (Nat.digitChar v).isDigit = true := by
  obtain ⟨c, v, rest, rfl, value⟩ := h.exists_cons
  exact ⟨v, plainDigits rest, plainDigits_cons_of_some value rest,
    isDigit_digitChar (Text.digitValue?_lt value)⟩

/-- Grouped digits without their underscores. -/
theorem Grouped.ungroup_eq (h : Grouped vs cs) :
    ungroup (plainDigits cs) = some (vs.map Nat.digitChar) := by
  induction h with
  | digit value =>
      rw [plainDigits_cons_of_some value, ungroup_cons (by simp) (by simp)]
      rfl
  | next value rest ih =>
      obtain ⟨w, ps, more, -⟩ := rest.exists_plainDigits
      rw [plainDigits_cons_of_some value, ungroup_cons (by simp) (by simp [more]), ih]
      rfl
  | apart value rest ih =>
      obtain ⟨w, ps, more, digit⟩ := rest.exists_plainDigits
      rw [plainDigits_cons_of_some value, plainDigits_cons_of_none (by decide)]
      rw [more] at ih ⊢
      rw [ungroup_cons_underscore (isDigit_digitChar (Text.digitValue?_lt value)) digit, ih]
      rfl

/-- A text loses an underscore behind its first character, or none there. -/
theorem ungroup_cons_cases (h : ungroup (c :: cs) = some ds) :
    ∃ rest, ds = c :: rest ∧ (ungroup cs = some rest ∨ c.isDigit = true ∧
      ∃ d more, cs = '_' :: d :: more ∧ ungroup (d :: more) = some rest) := by
  have other : c ≠ '_' := by
    rintro rfl
    simp [ungroup_cons_eq] at h
  by_cases next : cs.head? = some '_'
  · obtain ⟨_ | ⟨d, more⟩, rfl⟩ := List.head?_eq_some_iff.1 next
    · simp [ungroup_cons_eq] at h
    · by_cases both : (c.isDigit && d.isDigit) = true
      · obtain ⟨digit, digit'⟩ := Bool.and_eq_true_iff.1 both
        rw [ungroup_cons_underscore digit digit'] at h
        obtain ⟨rest, read, rfl⟩ := Option.map_eq_some_iff.1 h
        exact ⟨rest, rfl, .inr ⟨digit, d, more, rfl, read⟩⟩
      · simp [ungroup_cons_eq, both] at h
  · rw [ungroup_cons other next] at h
    obtain ⟨rest, read, rfl⟩ := Option.map_eq_some_iff.1 h
    exact ⟨rest, rfl, .inl read⟩

/-- A text that nothing but digits is left of without its underscores is made of grouped digits. -/
theorem grouped_of_ungroup (h : ungroup ps = some ds) (digits : ∀ d ∈ ds, d.isDigit = true)
    (nonempty : ps ≠ []) : Grouped (ds.map Decimal.digitValue) ps := by
  obtain ⟨c, cs, rfl⟩ := List.exists_cons_of_ne_nil nonempty
  -- The induction is on the digits that are left: an underscore goes with the digit before it.
  induction ds generalizing c cs with
  | nil =>
      obtain ⟨_, ⟨⟩, -⟩ := ungroup_cons_cases h
  | cons d ds ih =>
      obtain ⟨digit, digits⟩ := List.forall_mem_cons.1 digits
      have value := Text.digitValue?_of_isDigit digit
      obtain ⟨_, ⟨⟩, read | ⟨-, e, more, rfl, read⟩⟩ := ungroup_cons_cases h
      · cases cs with
        | nil =>
            obtain rfl : [] = ds := Option.some.inj read
            exact .digit value
        | cons e more => exact .next value (ih digits e more read (List.cons_ne_nil _ _))
      · exact .apart value (ih digits e more read (List.cons_ne_nil _ _))

/-! ### Signs -/

/-- A sign stays in front of digits that are grouped. -/
theorem IsSign.ungroup_eq {factor : Int} {sign : List Char} (h : IsSign factor sign)
    (h' : Grouped vs cs) :
    ungroup (plainDigits (sign ++ cs)) = some (sign ++ vs.map Nat.digitChar) := by
  have signed {c : Char} (none : Text.digitValue? c = none) (noDigit : c.isDigit = false)
      (other : c ≠ '_') : ungroup (plainDigits (c :: cs)) = some (c :: vs.map Nat.digitChar) := by
    rw [plainDigits_cons_of_none none, ungroup_cons_of_not_isDigit noDigit other, h'.ungroup_eq]
    rfl
  cases h with
  | missing => exact h'.ungroup_eq
  | plus => exact signed (by decide) rfl (by decide)
  | minus => exact signed (by decide) rfl (by decide)

/-- The sign in front of digits is found. -/
theorem IsSign.splitSign_eq {factor : Int} {sign : List Char} (h : IsSign factor sign)
    (h' : IsDigits ds) : splitSign (sign ++ ds) = (decide (factor < 0), ds) := by
  cases h with
  | missing => exact splitSign_of_isDigits h'
  | plus => rfl
  | minus => rfl

/-- A sign in front of digits, without the underscores of a text, is a sign in front of grouped
digits in the text. -/
theorem exists_sign_of_ungroup {qs : List Char} {negative : Bool}
    (h : ungroup (plainDigits cs) = some qs) (h' : splitSign qs = (negative, ds))
    (digits : IsDigits ds) :
    ∃ sign body, cs = sign ++ body ∧ IsSign (if negative then -1 else 1) sign ∧
      Grouped (ds.map Decimal.digitValue) body := by
  have unsigned {body : List Char} (read : ungroup (plainDigits body) = some ds) :
      Grouped (ds.map Decimal.digitValue) body := by
    refine (grouped_of_ungroup read digits.2 fun none => ?_).of_plainDigits rfl
    rw [none] at read
    exact digits.1 (Option.some.inj read).symm
  have signed {c : Char} (none : Text.digitValue? c = none) (noDigit : c.isDigit = false)
      (read : ungroup (plainDigits cs) = some (c :: ds)) :
      ∃ body, cs = c :: body ∧ Grouped (ds.map Decimal.digitValue) body := by
    cases plain : plainDigits cs with
    | nil => simp [plain, ungroup_nil] at read
    | cons d more =>
        rw [plain] at read
        obtain ⟨_, ⟨⟩, behind | ⟨digit, -⟩⟩ := ungroup_cons_cases read
        · obtain ⟨d, body, rfl, -, same, rfl⟩ := exists_of_plainDigits_eq_cons plain
          obtain rfl := same none
          exact ⟨body, rfl, unsigned behind⟩
        · cases noDigit.symm.trans digit
  unfold splitSign at h'
  split at h'
  · cases h'
    obtain ⟨body, rfl, grouped⟩ := signed (by decide) rfl h
    exact ⟨['-'], body, rfl, .minus, grouped⟩
  · cases h'
    obtain ⟨body, rfl, grouped⟩ := signed (by decide) rfl h
    exact ⟨['+'], body, rfl, .plus, grouped⟩
  · cases h'
    exact ⟨[], cs, rfl, .missing, unsigned h⟩

/-! ### Reading integers -/

theorem isMargin_eq_false (h : Text.isBlank c = false) : isMargin c = false := by
  simp [isMargin, h]

/-- Neither a sign nor a digit is a margin, so nothing more is trimmed from between them. -/
theorem trimBoth_signed {lead sign trail : List Char} {factor : Int}
    (front : ∀ c ∈ lead, isMargin c = true) (signed : IsSign factor sign) (h : Grouped vs cs)
    (back : ∀ c ∈ trail, isMargin c = true) :
    Text.trimBoth isMargin (lead ++ (sign ++ cs) ++ trail) = sign ++ cs := by
  have digit {c : Char} : (∃ v, Text.digitValue? c = some v) → isMargin c = false := by
    rintro ⟨v, value⟩
    exact isMargin_eq_false (Text.isBlank_of_digitValue? value)
  refine Text.trimBoth_append front back ?_ fun c member => ?_
  · cases signed with
    | missing =>
        obtain ⟨c, v, rest, rfl, value⟩ := h.exists_cons
        simpa using digit ⟨v, value⟩
    | plus => simpa using by decide
    | minus => simpa using by decide
  · rw [List.getLast?_append_of_ne_nil _ h.ne_nil] at member
    exact digit (h.last c member)

theorem Grouped.isDigits (h : Grouped vs cs) : IsDigits (vs.map Nat.digitChar) :=
  ⟨by simpa using h.values_ne_nil,
    List.forall_mem_map.2 fun v member => isDigit_digitChar (h.lt v member)⟩

/-- The values of grouped digits stand for the number that their ASCII digits denote. -/
theorem Grouped.ofDigits_eq (h : Grouped vs cs) :
    Decimal.ofDigits (vs.map Nat.digitChar) = Nat.ofDigits 10 vs.reverse := by
  have same : vs.map (Decimal.digitValue ∘ Nat.digitChar) = vs.map id :=
    List.map_congr_left fun v member => Decimal.digitValue_digitChar (h.lt v member)
  rw [Numeral.ofDigits_eq, List.map_map, same, List.map_id]

/-- The texts of integers are those with a sign and digits left when they are trimmed and their
underscores are taken away. -/
theorem spellsInteger_iff :
    SpellsInteger n count cs ↔ ∃ qs negative ds,
      ungroup (plainDigits (Text.trimBoth isMargin cs)) = some qs ∧
      splitSign qs = (negative, ds) ∧ IsDigits ds ∧ count = ds.length ∧
      n = if negative then -(Decimal.ofDigits ds : Int) else Decimal.ofDigits ds := by
  constructor
  · rintro ⟨front, signed, grouped, back⟩
    refine ⟨_, _, _, ?_, signed.splitSign_eq grouped.isDigits, grouped.isDigits, by simp, ?_⟩
    · rw [trimBoth_signed front signed grouped back]
      exact signed.ungroup_eq grouped
    · rw [grouped.ofDigits_eq]
      cases signed <;> simp
  · rintro ⟨qs, negative, ds, read, split, digits, rfl, rfl⟩
    obtain ⟨lead, trail, whole, front, back⟩ := Token.exists_append_trimBoth isMargin cs
    obtain ⟨sign, body, core, signed, grouped⟩ := exists_sign_of_ungroup read split digits
    have spelled := SpellsInteger.intro front signed grouped back
    rw [← core, ← whole, List.length_map, ← ofDigits_eq] at spelled
    cases negative <;> simpa using spelled

/-- A text has one meaning. -/
theorem SpellsInteger.unique {n' : Int} {count' : Nat} (h : SpellsInteger n count cs)
    (h' : SpellsInteger n' count' cs) : n = n' ∧ count = count' := by
  obtain ⟨qs, negative, ds, read, split, -, rfl, rfl⟩ := spellsInteger_iff.1 h
  obtain ⟨qs', negative', ds', read', split', -, rfl, rfl⟩ := spellsInteger_iff.1 h'
  cases read.symm.trans read'
  cases split.symm.trans split'
  exact ⟨rfl, rfl⟩

end Numeral

end Abacus
