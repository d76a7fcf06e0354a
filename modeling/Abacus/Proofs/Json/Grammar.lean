import Abacus.Binary64.Text
import Abacus.Json.Token
import Abacus.Proofs.Numeral.Notation

/-!
# The grammar of JSON

Which text means which value, stated without a reader. Gaps may stand between the tokens, strings
escape what has to be escaped and may escape the rest, and a number with a point or a power of ten
is a binary64 number while any other is an integer. The grammar is the strict one: it has no words
for numbers that are not finite.

## Main definitions

* `Json.Quoted.Spells` — the code units between the quotes of a string.
* `Json.Spells` — values, the items of arrays and the members of objects.
* `Json.IsText` — the texts of a value, with gaps around it or not.
* `Json.Fits` — the values within the limits of a reader.

## Design notes

A derivation follows the text, so the forms are one family and not mutual ones: an
induction then runs over all of them at once. The members of an object keep the order of the text;
that their names are distinct is a property of the value, and stands in `Json.Fits`.
-/

namespace Abacus.Json

/-- `Quoted.Spells units text`: the text stands between quotes for code points and code units. -/
inductive Quoted.Spells : List Nat → List Char → Prop
  | nil : Spells [] []
  | plain {c : Char} {units : List Nat} {text : List Char} :
      c ≠ '"' → c ≠ '\\' → 0x20 ≤ c.toNat → Spells units text →
      Spells (c.toNat :: units) (c :: text)
  | letter {c meant : Char} {units : List Nat} {text : List Char} :
      Quoted.ofLetter? c = some meant → Spells units text →
      Spells (meant.toNat :: units) ('\\' :: c :: text)
  | unit {c₁ c₂ c₃ c₄ : Char} {unit : Nat} {units : List Nat} {text : List Char} :
      Text.readHex? [c₁, c₂, c₃, c₄] = some unit → Spells units text →
      Spells (unit :: units) ('\\' :: 'u' :: c₁ :: c₂ :: c₃ :: c₄ :: text)

/-- The text is a string in quotes. -/
inductive SpellsString (s : String) : List Char → Prop
  | intro {units : List Nat} {body : List Char} :
      Quoted.Spells units body → Quoted.ofUnits units = s.toList →
      SpellsString s ('"' :: body ++ ['"'])

/-- What may stand between tokens. It separates nothing that would not be separate without it, apart
from words. -/
def IsGap (cs : List Char) : Prop := ∀ c ∈ cs, isSpace c = true

theorem isGap_nil : IsGap [] := List.forall_mem_nil _

/-- The sign of a number. -/
def signed (negative : Bool) (n : Nat) : Int := if negative then -n else n

/-- What a text may have to spell. Lists of items and members are forms of their own, so that one
relation has the grammar. -/
inductive Form where
  | value (v : Json)
  /-- A value with gaps around it. -/
  | element (v : Json)
  /-- One item or more. -/
  | items (vs : List Json)
  /-- A name and the element that it names. -/
  | member (name : String) (v : Json)
  /-- One member or more. -/
  | members (ms : List (String × Json))

/-- `Spells form text`: the text spells the form, and is strict JSON. -/
inductive Spells : Form → List Char → Prop
  | null : Spells (.value .null) ['n', 'u', 'l', 'l']
  | bool (b : Bool) : Spells (.value (.bool b))
      (if b then ['t', 'r', 'u', 'e'] else ['f', 'a', 'l', 's', 'e'])
  | int {ds : List Char} (negative : Bool) : Numeral.IsWhole ds →
      Spells (.value (.int (signed negative (Decimal.ofDigits ds))))
        (Binary64.writeSign negative ++ ds)
  | float {d : Decimal} {cs : List Char} (negative : Bool) : Numeral.Spells d cs →
      (∃ c ∈ cs, c.isDigit = false) →
      Spells (.value (.float (.ofDecimal negative d))) (Binary64.writeSign negative ++ cs)
  | str {s : String} {text : List Char} : SpellsString s text → Spells (.value (.str s)) text
  | emptyArray {gap : List Char} : IsGap gap → Spells (.value (.arr [])) ('[' :: gap ++ [']'])
  | array {vs : List Json} {text : List Char} : Spells (.items vs) text →
      Spells (.value (.arr vs)) ('[' :: text ++ [']'])
  | emptyObject {gap : List Char} : IsGap gap →
      Spells (.value (.obj [])) ('\x7b' :: gap ++ ['\x7d'])
  | object {ms : List (String × Json)} {text : List Char} : Spells (.members ms) text →
      Spells (.value (.obj ms)) ('\x7b' :: text ++ ['\x7d'])
  | element {v : Json} {before text after : List Char} : IsGap before → Spells (.value v) text →
      IsGap after → Spells (.element v) (before ++ text ++ after)
  | lastItem {v : Json} {text : List Char} : Spells (.element v) text → Spells (.items [v]) text
  | moreItems {v : Json} {vs : List Json} {text others : List Char} : Spells (.element v) text →
      Spells (.items vs) others → Spells (.items (v :: vs)) (text ++ ',' :: others)
  | member {name : String} {v : Json} {before key after text : List Char} : IsGap before →
      SpellsString name key → IsGap after → Spells (.element v) text →
      Spells (.member name v) (before ++ key ++ after ++ ':' :: text)
  | lastMember {name : String} {v : Json} {text : List Char} : Spells (.member name v) text →
      Spells (.members [(name, v)]) text
  | moreMembers {name : String} {v : Json} {ms : List (String × Json)} {text others : List Char} :
      Spells (.member name v) text → Spells (.members ms) others →
      Spells (.members ((name, v) :: ms)) (text ++ ',' :: others)

/-- The text is strict JSON, and means the value. Gaps around the value belong to the text. -/
def IsText (v : Json) (text : String) : Prop := Spells (.element v) text.toList

/-- `Fits depth v`: the integers of the value are not too long, no object has a name twice, and
arrays and objects are nested no deeper than `depth`. -/
inductive Fits : Nat → Json → Prop
  | null {depth : Nat} : Fits depth .null
  | bool {depth : Nat} (b : Bool) : Fits depth (.bool b)
  | int {depth : Nat} {n : Int} : Decimal.digitCount n.natAbs ≤ Numeral.maxIntegerDigits →
      Fits depth (.int n)
  | float {depth : Nat} (x : Binary64) : Fits depth (.float x)
  | str {depth : Nat} (s : String) : Fits depth (.str s)
  | arr {depth : Nat} {items : List Json} : (∀ v ∈ items, Fits depth v) →
      Fits (depth + 1) (.arr items)
  | obj {depth : Nat} {members : List (String × Json)} : (members.map Prod.fst).Nodup →
      (∀ member ∈ members, Fits depth member.2) → Fits (depth + 1) (.obj members)

end Abacus.Json
