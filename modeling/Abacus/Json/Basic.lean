import Abacus.Binary64.Basic

/-!
# JSON values

JSON values with integers and binary64 numbers kept apart. The members of an object keep the order
in which their names first came.

## Main definitions

* `Json` — the values.
* `Json.insertMember` — sets a member of an object.
* `Json.member?` — looks a member up.

## Main statements

* `Json.member?_insertMember_self`, `Json.member?_insertMember_of_ne` — setting a member changes
  that member alone.
-/

namespace Abacus

/-- A JSON value. What is spelled with a point or an exponent is a binary64 number and anything else
an integer of any size, so that reading and writing again keeps the spelling apart. The members of
an object are a list: their order is kept, and whether a name is there twice is not settled by the
type. -/
inductive Json where
  | null
  | bool (b : Bool)
  | int (n : Int)
  | float (x : Binary64)
  | str (s : String)
  | arr (items : List Json)
  | obj (members : List (String × Json))

namespace Json

/-- The members with one set: in its place if the name is there, else at the end. So a name that is
given twice has the place of the first and the value of the last. -/
def insertMember (name : String) (v : Json) : List (String × Json) → List (String × Json)
  | [] => [(name, v)]
  | (other, w) :: rest =>
    if other = name then (name, v) :: rest else (other, w) :: insertMember name v rest

/-- The value of a member, if the name is there. A member that is null is there. -/
def member? (name : String) (members : List (String × Json)) : Option Json :=
  (members.find? fun entry => entry.1 == name).map Prod.snd

@[simp]
theorem member?_insertMember_self (name : String) (v : Json) (members : List (String × Json)) :
    member? name (insertMember name v members) = some v := by
  induction members with
  | nil => simp [insertMember, member?]
  | cons entry rest ih =>
    obtain ⟨other, w⟩ := entry
    by_cases h : other = name
    · simp [insertMember, member?, h]
    · simpa [insertMember, member?, h] using ih

theorem member?_insertMember_of_ne {name other : String} (h : other ≠ name) (v : Json)
    (members : List (String × Json)) :
    member? other (insertMember name v members) = member? other members := by
  induction members with
  | nil => simp [insertMember, member?, h.symm]
  | cons entry rest ih =>
    obtain ⟨key, w⟩ := entry
    unfold member? at ih ⊢
    unfold insertMember
    split
    · rename_i hk
      simp [hk, h.symm]
    · cases hkey : key == other <;> simp [hkey, ih]

end Json

end Abacus
