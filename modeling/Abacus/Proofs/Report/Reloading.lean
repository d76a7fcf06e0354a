import Abacus.Proofs.Json.Limits
import Abacus.Proofs.Render.Showing
import Abacus.Proofs.Report.Loading
import Abacus.Proofs.Report.Members
import Abacus.Proofs.Report.RoundTrip

/-!
# Loaded reports that are saved again

Whatever a file holds, the values of the report that is loaded from it are within the limits of a
reader. So saving it meets no limit, and if its numbers outside the results are finite, it is loaded
again as it was.

## Main statements

* `Report.storable_of_load` — the values of a loaded report are within the limits.
* `Report.exists_save_of_load` — a loaded report is saved and loaded again.
-/

namespace Abacus

/-! ### Members and items -/

namespace Json

/-- The member of a name, if there is one, has a property. A member that is missing has every
property. -/
def Member (name : String) (p : Json → Prop) (members : List (String × Json)) : Prop :=
  ∀ v ∈ member? name members, p v

/-- Where the default has the property, it does not matter whether the member is there. -/
theorem member_iff {p : Json → Prop} {default : Json} (h : p default) (name : String)
    (members : List (String × Json)) :
    p ((member? name members).getD default) ↔ Member name p members := by
  cases found : member? name members <;> simp [Member, found, h]

/-- The values of an object, and what stands for a missing one, fit inside it. -/
theorem Fits.getD_member? {depth : Nat} {members : List (String × Json)}
    (h : Fits (depth + 1) (.obj members)) {default : Json} (fits : Fits depth default)
    (name : String) : Fits depth ((member? name members).getD default) := by
  cases h with
  | obj _ values =>
      refine (member_iff fits name members).2 fun v there => ?_
      obtain ⟨member, found, rfl⟩ := Option.map_eq_some_iff.1 there
      exact values member (List.mem_of_find?_eq_some found)

theorem fits_zero (depth : Nat) : Fits depth (.int 0) := by
  refine .int ?_
  rw [Int.natAbs_zero, Decimal.digitCount, Decimal.digits, Nat.toDigits_of_lt_base (by decide)]
  decide

end Json

/-- What is made of the parts of a list has a property if what is made of each has. -/
theorem forall_mem_iff_of_mapM {α β ε : Type} {f : α → Except ε β} {p : β → Prop} {xs : List α}
    {ys : List β} (h : xs.mapM f = .ok ys) :
    (∀ y ∈ ys, p y) ↔ ∀ x ∈ xs, ∃ y, f x = .ok y ∧ p y := by
  rw [← Render.exists_mapM_iff]
  simp [h]

/-! ### Limits -/

namespace Entry

variable {depth : Nat} {v : Json}

/-- The values of an entry stand one level deeper than it. -/
theorem fits_of_ofJson {entry : Entry} (h : ofJson v = .ok entry) (fits : Json.Fits (depth + 1) v) :
    Json.Fits depth entry.line ∧ Json.Fits depth entry.expression := by
  obtain ⟨members, outcome, rfl, -, rfl⟩ := ofJson_eq_ok_iff.1 h
  exact ⟨fits.getD_member? (Json.fits_zero depth) "line", fits.getD_member? (.str "") "expression"⟩

theorem fits_of_listOfJson {entries : List Entry} (h : listOfJson v = .ok entries)
    (fits : Json.Fits (depth + 1 + 1) v) :
    ∀ entry ∈ entries, Json.Fits depth entry.line ∧ Json.Fits depth entry.expression := by
  cases fits with
  | arr inside =>
      refine (forall_mem_iff_of_mapM h).2 fun item member => ?_
      obtain ⟨entry, made⟩ := Render.exists_mapM_eq_ok_iff.1 ⟨entries, h⟩ item member
      exact ⟨entry, made, fits_of_ofJson made (inside item member)⟩
  | _ =>
      rw [Report.eq_nil_of_listOfJson (by simp) h]
      exact List.forall_mem_nil _

end Entry

namespace Report

variable {report : Report} {ws : Workspace} {path : Path}

/-- What is loaded is held by the JSON value of a text. -/
theorem exists_of_load_eq_some (h : load ws path = .ok (some report)) :
    ∃ text v, HoldsText ws path text ∧ Json.read text = .ok v ∧ ofJson v = .ok report := by
  unfold load ofBytes at h
  cases content : ws.read path with
  | error error => simp [content] at h
  | ok bytes =>
      cases decoded : Utf8.decode bytes with
      | error fault => simp [content, decoded] at h
      | ok text =>
          cases read : Json.read text with
          | error error => cases error <;> simp [content, decoded, read] at h
          | ok v =>
              cases held : ofJson v with
              | error error => cases error <;> simp [content, decoded, read, held] at h
              | ok made =>
                  simp only [content, decoded, read, held, Except.ok.injEq, Option.some.injEq] at h
                  subst h
                  exact ⟨text, v, ⟨bytes, content, decoded⟩, read, held⟩

/-- **The values of a loaded report are within the limits of a reader,** if the number of its
entries is. -/
theorem storable_of_load (loaded : load ws path = .ok (some report))
    (few : Decimal.digitCount report.total ≤ Numeral.maxIntegerDigits) : report.Storable := by
  obtain ⟨text, v, -, read, held⟩ := exists_of_load_eq_some loaded
  have fits : Json.Fits (Json.nestingLimit - 3 + 1 + 1 + 1) v := Json.fits_of_read read
  obtain ⟨members, entries, rfl, listed, rfl⟩ := ofJson_eq_ok_iff.1 held
  have list := fits.getD_member? (.arr (List.forall_mem_nil _)) "entries"
  exact ⟨fits.getD_member? (.str "") "source", fits.getD_member? (.str "") "timestamp", few,
    Entry.fits_of_listOfJson listed list⟩

/-- **A loaded report is saved and loaded again,** if its numbers outside the results are finite. It
may be saved elsewhere, over any file that is there. -/
theorem exists_save_of_load (loaded : load ws path = .ok (some report))
    (few : Decimal.digitCount report.total ≤ Numeral.maxIntegerDigits) (finite : report.IsFinite)
    {other : Workspace} {place : Path} (writable : other.Writable place) :
    ∃ written, report.save other place = (written, none) ∧
      load written place = .ok (some report) := by
  obtain ⟨written, saved, content⟩ := (save_of_writable writable report).1 finite
  exact ⟨written, saved, load_of_read finite (storable_of_load loaded few) content⟩

end Report

end Abacus
