import Abacus.Json.Write
import Abacus.Proofs.Binary64.Literal
import Abacus.Proofs.Json.Scanning

/-!
# What is written is strict JSON

The text of a value is derived by the grammar for that value, if no number in it is infinite or NaN.
It is ASCII, whatever the strings in the value hold.

## Main statements

* `Json.spells_writeAt`, `Json.isText_write` — the text means the value.
* `Json.Composes.writeAt` — what holds of strings and outside of them holds of the text.
* `Json.isAscii_writeAt` — the characters of the text.
-/

namespace Abacus.Json

/-! ### Strings -/

namespace Quoted

variable {units : List Nat} {text : List Char}

theorem spells_unitEscape_append {n : Nat} (small : n < 0x10000) (h : Spells units text) :
    Spells (n :: units) (unitEscape n ++ text) := by
  obtain ⟨c₁, c₂, c₃, c₄, digits⟩ : ∃ c₁ c₂ c₃ c₄, Text.writeHex 4 n = [c₁, c₂, c₃, c₄] := by
    simp [Text.writeHex]
  have read : Text.readHex? (Text.writeHex 4 n) = some n := Text.readHex?_writeHex small
  rw [digits] at read
  rw [unitEscape, digits]
  exact .unit read h

/-- The text of a character stands for its code units. It may be the character itself, an escape of
two characters, or one or two escaped units. -/
theorem spells_encodeChar_append (c : Char) (h : Spells units text) :
    Spells (unitsOf c ++ units) (encodeChar c ++ text) := by
  have valid : c.toNat < 0xD800 ∨ 0xDFFF < c.toNat ∧ c.toNat < 0x110000 := c.valid
  have one (small : c.toNat < 0x10000) : unitsOf c = [c.toNat] := if_pos small
  unfold encodeChar
  split
  · next mark =>
      have meant : ofLetter? c = some c ∧ c.toNat < 0x10000 := by
        rcases mark with rfl | rfl <;> decide
      rw [one meant.2]
      exact .letter meant.1 h
  split
  · next other plain =>
      rw [not_or] at other
      rw [one (by omega)]
      exact .plain other.1 other.2 plain.1 h
  split
  · next letter found =>
      have meant := ofLetter?_of_letterOf? found
      rw [one meant.2.2]
      exact .letter meant.2.1 h
  split
  · next small =>
      rw [one small]
      exact spells_unitEscape_append small h
  · next large =>
      have pair : unitsOf c = [highSurrogate c, lowSurrogate c] := if_neg large
      have high : highSurrogate c < 0x10000 := by
        unfold highSurrogate
        omega
      have low : lowSurrogate c < 0x10000 := by
        unfold lowSurrogate
        omega
      rw [pair, List.append_assoc]
      exact spells_unitEscape_append high (spells_unitEscape_append low h)

end Quoted

theorem spellsString_writeString (s : String) : SpellsString s (writeString s) := by
  have body : Quoted.Spells (s.toList.flatMap Quoted.unitsOf) (Quoted.encode s.toList) := by
    unfold Quoted.encode
    induction s.toList with
    | nil => exact .nil
    | cons c cs ih => exact Quoted.spells_encodeChar_append c ih
  have value : Quoted.ofUnits (s.toList.flatMap Quoted.unitsOf) = s.toList := by
    induction s.toList with
    | nil => rfl
    | cons c cs ih => rw [List.flatMap_cons, Quoted.ofUnits_unitsOf_append, ih]
  exact .intro body value

/-! ### Numbers -/

theorem spells_writeInt (n : Int) : Spells (.value (.int n)) (writeInt n) := by
  have value : signed (n < 0) (Decimal.ofDigits (Decimal.digits n.natAbs)) = n := by
    rw [Decimal.ofDigits_digits, signed]
    split
    · next negative =>
        have := of_decide_eq_true negative
        omega
    · next positive =>
        have := of_decide_eq_false (Bool.eq_false_iff.2 positive)
        omega
  have spelled := Spells.int (n < 0) (Decimal.isWhole_digits n.natAbs)
  rwa [value] at spelled

theorem spells_literal {x : Binary64} (h : x.isFinite = true) :
    Spells (.value (.float x)) x.literal.toList := by
  cases x with
  | nan => cases h
  | infinite => cases h
  | finite negative quanta grid =>
      obtain ⟨d, cs, text, numeral, marked, value⟩ :=
        Binary64.exists_spells_literal negative grid
      rw [text, ← value]
      exact .float negative numeral marked

/-! ### Arrays and objects -/

theorem allFinite_iff {vs : List Json} : allFinite vs = true ↔ ∀ v ∈ vs, v.isFinite = true := by
  induction vs with
  | nil => simp [allFinite]
  | cons v vs ih => simp [allFinite, ih]

theorem allMembersFinite_iff {ms : List (String × Json)} :
    allMembersFinite ms = true ↔ ∀ member ∈ ms, member.2.isFinite = true := by
  induction ms with
  | nil => simp [allMembersFinite]
  | cons member ms ih => simp [allMembersFinite, ih]

theorem isGap_newLine (level : Nat) : IsGap (newLine level) := by
  refine List.forall_mem_cons.2 ⟨rfl, fun c member => ?_⟩
  rw [List.eq_of_mem_replicate member]
  rfl

/-- A gap in front of a value belongs to its element. -/
theorem Spells.behind {v : Json} {gap text : List Char} (h : Spells (.value v) text)
    (isGap : IsGap gap) : Spells (.element v) (gap ++ text) := by
  simpa using Spells.element isGap h isGap_nil

/-- Items are written one a line. The lines are gaps, so they spell the same as without them. -/
theorem spells_writeItems {vs : List Json} (nonempty : vs ≠ []) {level : Nat}
    (h : ∀ v ∈ vs, Spells (.value v) (v.writeAt level)) {after : List Char} (gap : IsGap after) :
    Spells (.items vs) (writeItems level vs ++ after) := by
  induction vs with
  | nil => exact absurd rfl nonempty
  | cons v vs ih =>
      have first := h v List.mem_cons_self
      cases vs with
      | nil => exact .lastItem (.element (isGap_newLine level) first gap)
      | cons w vs =>
          have others := ih (by simp) fun v member => h v (List.mem_cons_of_mem _ member)
          -- Only behind the last item is there a gap; a comma follows the others at once.
          have all := Spells.moreItems (first.behind (isGap_newLine level)) others
          simpa [writeItems] using all

/-- A member is written on its line. -/
theorem spells_writeMember (name : String) {v : Json} {level : Nat}
    (h : Spells (.value v) (v.writeAt level)) {after : List Char} (gap : IsGap after) :
    Spells (.member name v)
      (newLine level ++ writeString name ++ ':' :: ' ' :: v.writeAt level ++ after) := by
  have blank : IsGap [' '] := by simp [IsGap, isSpace]
  have member := Spells.member (isGap_newLine level) (spellsString_writeString name)
    isGap_nil (.element blank h gap)
  simpa using member

/-- Members are written one a line. -/
theorem spells_writeMembers {ms : List (String × Json)} (nonempty : ms ≠ []) {level : Nat}
    (h : ∀ member ∈ ms, Spells (.value member.2) (member.2.writeAt level)) {after : List Char}
    (gap : IsGap after) : Spells (.members ms) (writeMembers level ms ++ after) := by
  induction ms with
  | nil => exact absurd rfl nonempty
  | cons member ms ih =>
      obtain ⟨name, v⟩ := member
      have first := h (name, v) List.mem_cons_self
      cases ms with
      | nil => exact .lastMember (spells_writeMember name first gap)
      | cons other ms =>
          have others := ih (by simp) fun v member => h v (List.mem_cons_of_mem _ member)
          have all := Spells.moreMembers (spells_writeMember name first isGap_nil) others
          simpa [writeMembers] using all

/-- **The text of a value means the value.** The level of nesting is a matter of blanks only. -/
theorem spells_writeAt {depth : Nat} {v : Json} (h : Fits depth v) (finite : v.isFinite = true)
    (level : Nat) : Spells (.value v) (v.writeAt level) := by
  induction h generalizing level with
  | null => exact .null
  | bool b => cases b <;> exact .bool _
  | int => exact spells_writeInt _
  | float x => exact spells_literal finite
  | str s => exact .str (spellsString_writeString s)
  | @arr _ items _ ih =>
      have each := allFinite_iff.1 finite
      cases items with
      | nil => exact .emptyArray isGap_nil
      | cons v vs =>
          exact .array (spells_writeItems (by simp)
            (fun v member => ih v member (each v member) (level + 1)) (isGap_newLine level))
  | @obj _ members _ _ ih =>
      have each := allMembersFinite_iff.1 finite
      cases members with
      | nil => exact .emptyObject isGap_nil
      | cons member ms =>
          exact .object (spells_writeMembers (by simp)
            (fun v member => ih v member (each v member) (level + 1)) (isGap_newLine level))

/-- **What is written is strict JSON,** and means the value. Numbers have to be finite for that, in
arrays and objects too. -/
theorem isText_write {depth : Nat} {v : Json} (h : Fits depth v) (finite : v.isFinite = true) :
    IsText v v.write := by
  have spelled := (spells_writeAt h finite 0).behind isGap_nil
  rwa [IsText, write, String.toList_ofList]

/-! ### Characters -/

/-- The text is ASCII. So its bytes are its characters, in every encoding that has ASCII. -/
def IsAscii (cs : List Char) : Prop := ∀ c ∈ cs, c.toNat < 0x80

theorem IsAscii.nil : IsAscii [] := List.forall_mem_nil _

theorem IsAscii.append {cs ds : List Char} (h : IsAscii cs) (h' : IsAscii ds) :
    IsAscii (cs ++ ds) :=
  List.forall_mem_append.2 ⟨h, h'⟩

theorem IsAscii.cons {c : Char} {cs : List Char} (small : c.toNat < 0x80) (h : IsAscii cs) :
    IsAscii (c :: cs) :=
  List.forall_mem_cons.2 ⟨small, h⟩

theorem toNat_lt_of_isWordChar {c : Char} (h : isWordChar c = true) : c.toNat < 0x80 := by
  simp only [isWordChar, Char.isAlphanum, Char.isAlpha, Char.isUpper, Char.isLower, Char.isDigit,
    Bool.or_eq_true, Bool.and_eq_true, decide_eq_true_eq, beq_iff_eq, ge_iff_le,
    UInt32.le_iff_toNat_le] at h
  have upper : 'Z'.val.toNat = 90 := rfl
  have lower : 'z'.val.toNat = 122 := rfl
  have digit : '9'.val.toNat = 57 := rfl
  have code : c.toNat = c.val.toNat := rfl
  rcases h with ((((letter | letter) | digit) | rfl) | rfl) | rfl
  · omega
  · omega
  · omega
  all_goals decide

namespace Quoted

theorem isAscii_writeHex (count n : Nat) : IsAscii (Text.writeHex count n) := by
  induction count generalizing n with
  | zero => exact .nil
  | succ count ih =>
      have digit : ∀ d < 16, (Text.hexDigit d).toNat < 0x80 := by decide
      exact (ih (n / 16)).append (.cons (digit _ (Nat.mod_lt n (by decide))) .nil)

theorem isAscii_unitEscape (unit : Nat) : IsAscii (unitEscape unit) :=
  .cons (by decide) (.cons (by decide) (isAscii_writeHex 4 unit))

theorem toNat_lt_of_letterOf? {c letter : Char} (h : letterOf? c = some letter) :
    letter.toNat < 0x80 := by
  unfold letterOf? at h
  repeat' split at h
  all_goals first | (cases h; decide) | cases h

theorem isAscii_encodeChar (c : Char) : IsAscii (encodeChar c) := by
  unfold encodeChar
  split
  · next mark =>
      have small : c.toNat < 0x80 := by rcases mark with rfl | rfl <;> decide
      exact .cons (by decide) (.cons small .nil)
  split
  · next plain => exact .cons (by omega) .nil
  split
  · next letter found =>
      exact .cons (by decide) (.cons (toNat_lt_of_letterOf? found) .nil)
  split
  · exact isAscii_unitEscape _
  · exact (isAscii_unitEscape _).append (isAscii_unitEscape _)

end Quoted

theorem isAscii_writeString (s : String) : IsAscii (writeString s) := by
  have body : IsAscii (Quoted.encode s.toList) := by
    intro c member
    obtain ⟨d, -, inside⟩ := List.mem_flatMap.1 member
    exact Quoted.isAscii_encodeChar d c inside
  exact (IsAscii.cons (by decide) body).append (.cons (by decide) .nil)

/-! ### Outside of strings -/

/-- The characters that are written outside of strings: they are ASCII, and no quotes. So they begin
and end no string. -/
def IsBare (cs : List Char) : Prop := ∀ c ∈ cs, c.toNat < 0x80 ∧ c ≠ '"'

instance : DecidablePred IsBare := fun cs =>
  decidable_of_iff (cs.all (fun c => decide (c.toNat < 0x80) && c != '"') = true) (by
    simp [IsBare])

theorem IsBare.append {cs ds : List Char} (h : IsBare cs) (h' : IsBare ds) : IsBare (cs ++ ds) :=
  List.forall_mem_append.2 ⟨h, h'⟩

theorem isBare_of_isWordChar {cs : List Char} (h : ∀ c ∈ cs, isWordChar c = true) : IsBare cs := by
  intro c member
  refine ⟨toNat_lt_of_isWordChar (h c member), ?_⟩
  rintro rfl
  exact absurd (h _ member) (by decide)

theorem isBare_writeSign (negative : Bool) : IsBare (Binary64.writeSign negative) := by
  cases negative <;> decide

theorem isBare_literal (x : Binary64) : IsBare x.literal.toList := by
  cases x with
  | nan =>
      rw [show Binary64.nan.literal.toList = ['n', 'a', 'n'] from rfl]
      decide
  | infinite negative =>
      rw [show (Binary64.infinite negative).literal.toList =
        Binary64.writeSign negative ++ ['i', 'n', 'f'] from String.toList_ofList]
      exact (isBare_writeSign negative).append (by decide)
  | finite negative quanta grid =>
      obtain ⟨d, cs, text, numeral, -, -⟩ := Binary64.exists_spells_literal negative grid
      rw [text]
      exact (isBare_writeSign negative).append
        (isBare_of_isWordChar (isWordChar_of_mem_numeral numeral))

theorem isBare_writeInt (n : Int) : IsBare (writeInt n) :=
  (isBare_writeSign _).append
    (isBare_of_isWordChar (isWordChar_of_mem_digits (Decimal.isDigits_digits _)))

theorem isBare_newLine (level : Nat) : IsBare (newLine level) := by
  refine List.forall_mem_cons.2 ⟨by decide, fun c member => ?_⟩
  rw [List.eq_of_mem_replicate member]
  decide

/-- A property that holds of what is written outside of strings, of strings, and of two texts in a
row if it holds of both. -/
structure Composes (P : List Char → Prop) : Prop where
  bare : ∀ cs, IsBare cs → P cs
  string : ∀ s, P (writeString s)
  append : ∀ cs ds, P cs → P ds → P (cs ++ ds)

namespace Composes

variable {P : List Char → Prop}

mutual

/-- What composes holds of the text of a value. The induction on values is made here, once for all
properties of written text. -/
theorem writeAt (h : Composes P) (level : Nat) : ∀ v : Json, P (v.writeAt level)
  | .null => h.bare _ (by simp only [Json.writeAt]; decide)
  | .bool true => h.bare _ (by simp only [Json.writeAt]; decide)
  | .bool false => h.bare _ (by simp only [Json.writeAt]; decide)
  | .int n => by
      rw [Json.writeAt]
      exact h.bare _ (isBare_writeInt n)
  | .float x => by
      rw [Json.writeAt]
      exact h.bare _ (isBare_literal x)
  | .str s => by
      rw [Json.writeAt]
      exact h.string s
  | .arr [] => h.bare _ (by simp only [Json.writeAt]; decide)
  | .arr (v :: vs) =>
      h.append _ _ (h.append _ _ (h.append ['['] _ (h.bare _ (by decide))
        (h.writeItems (level + 1) (v :: vs))) (h.bare _ (isBare_newLine level)))
          (h.bare _ (by decide))
  | .obj [] => h.bare _ (by simp only [Json.writeAt]; decide)
  | .obj (member :: ms) =>
      h.append _ _ (h.append _ _ (h.append ['\x7b'] _ (h.bare _ (by decide))
        (h.writeMembers (level + 1) (member :: ms))) (h.bare _ (isBare_newLine level)))
          (h.bare _ (by decide))

theorem writeItems (h : Composes P) (level : Nat) :
    ∀ vs : List Json, P (Json.writeItems level vs)
  | [] => h.bare [] (by decide)
  | [v] => h.append _ _ (h.bare _ (isBare_newLine level)) (h.writeAt level v)
  | v :: w :: vs =>
      h.append _ _ (h.append _ _ (h.bare _ (isBare_newLine level)) (h.writeAt level v))
        (h.append [','] _ (h.bare _ (by decide)) (h.writeItems level (w :: vs)))

theorem writeMembers (h : Composes P) (level : Nat) :
    ∀ ms : List (String × Json), P (Json.writeMembers level ms)
  | [] => h.bare [] (by decide)
  | [(name, v)] =>
      h.append _ _ (h.append _ _ (h.bare _ (isBare_newLine level)) (h.string name))
        (h.append [':', ' '] _ (h.bare _ (by decide)) (h.writeAt level v))
  | (name, v) :: member :: ms =>
      h.append _ _ (h.append _ _ (h.append _ _ (h.bare _ (isBare_newLine level)) (h.string name))
        (h.append [':', ' '] _ (h.bare _ (by decide)) (h.writeAt level v)))
          (h.append [','] _ (h.bare _ (by decide)) (h.writeMembers level (member :: ms)))

end

end Composes

/-- **The text of a value is ASCII,** whatever characters its strings have. All other characters are
escaped. -/
theorem isAscii_writeAt (level : Nat) (v : Json) : IsAscii (v.writeAt level) :=
  Composes.writeAt ⟨fun _ bare c member => (bare c member).1, isAscii_writeString,
    fun _ _ => IsAscii.append⟩ level v

end Abacus.Json
