import Mathlib
import Abacus.Report.Codec

/-!
# The members that a report is read from

A report is read from three members of an object: its source, its time and its entries. An entry is
read from its line, its expression and its error, and from its result if it has no error. No other
member has a say, in a report no more than in what is found wrong with an object. The counters are
those of the entries, whatever counters an object holds.

## Main definitions

* `Json.Agree` — objects that hold the same under a name.
* `Entry.error?` — the error that the members of an entry hold; null is none.
* `Entry.lacksError` — the values of entries that are read from their result.
* `Entry.Alike`, `Entry.ListsAlike`, `Report.Alike` — values that agree on what is read of them.
* `Report.items` — the values that the entries of an object are read from.

## Main statements

* `Entry.ofJson_congr`, `Report.ofJson_congr` — values that agree on these are read alike.
* `Report.forall₂_items` — every entry is read from its own value.
* `Report.ofJson_ignores` — what a report does not depend on, and what its counters say.
-/

namespace Abacus

/-! ### Lists that are read part by part -/

section Lists

variable {α β ε : Type} {f : α → Except ε β}

/-- Lists whose parts are read alike are read alike, up to the first part that cannot be read. -/
theorem mapM_congr_of_forall₂ {xs ys : List α} (h : List.Forall₂ (fun x y => f x = f y) xs ys) :
    xs.mapM f = ys.mapM f := by
  induction h with
  | nil => rfl
  | cons first _ ih => rw [List.mapM_cons, List.mapM_cons, first, ih]

/-- A list that can be read gives one value for each part. -/
theorem forall₂_of_mapM {xs : List α} {ys : List β} (h : xs.mapM f = .ok ys) :
    List.Forall₂ (fun x y => f x = .ok y) xs ys := by
  induction xs generalizing ys with
  | nil =>
      cases h
      exact .nil
  | cons x xs ih =>
      rw [List.mapM_cons] at h
      cases first : f x with
      | error error => simp [first, bind, Except.bind] at h
      | ok y =>
          cases others : xs.mapM f with
          | error error => simp [first, others, bind, Except.bind] at h
          | ok zs =>
              simp only [first, others, bind, Except.bind, pure, Except.pure,
                Except.ok.injEq] at h
              subst h
              exact .cons first (ih others)

/-- Where the parts of two lists pass alike, as many pass. -/
theorem countP_eq_of_forall₂ {p : α → Bool} {q : β → Bool} {xs : List α} {ys : List β}
    (h : List.Forall₂ (fun x y => p x = q y) xs ys) : xs.countP p = ys.countP q := by
  induction h with
  | nil => rfl
  | cons first _ ih => simp only [List.countP_cons, first, ih]

end Lists

/-! ### Values that are read alike -/

/-- The members hold the same value under a name, or both hold none. -/
def Json.Agree (name : String) (xs ys : List (String × Json)) : Prop :=
  Json.member? name xs = Json.member? name ys

namespace Entry

/-- The error that the members hold. One that is null is none. An error of any other type is one, a
false one too. -/
def error? (members : List (String × Json)) : Option Json :=
  match Json.member? "error" members with
  | some .null => none
  | found => found

/-- The values agree on all that is read of an entry: they are the same, or they are objects with
the same line, expression and error, and with the same result if there is no error. -/
inductive Alike : Json → Json → Prop
  | same (v : Json) : Alike v v
  | objects {xs ys : List (String × Json)} :
      Json.Agree "line" xs ys → Json.Agree "expression" xs ys → error? xs = error? ys →
      (error? xs = none → Json.Agree "result" xs ys) → Alike (.obj xs) (.obj ys)

/-- The values agree on all that is read of entries: they are the same, or they are lists that do so
entry by entry. -/
inductive ListsAlike : Json → Json → Prop
  | same (v : Json) : ListsAlike v v
  | lists {vs ws : List Json} : List.Forall₂ Alike vs ws → ListsAlike (.arr vs) (.arr ws)

/-- An outcome is the error, if there is one, and otherwise what the result says. -/
theorem ofMembers_eq (members : List (String × Json)) :
    Outcome.ofMembers members =
      match error? members with
      | none => (Outcome.numberOfJson ((Json.member? "result" members).getD .null)).map .value
      | some error => .ok (.failure error.plainText) := by
  unfold Outcome.ofMembers error?
  rcases Json.member? "error" members with _ | error
  · rfl
  · cases error <;> rfl

/-- An entry that can be read is one of an object, with the outcome of its members. -/
theorem ofJson_eq_ok_iff {v : Json} {entry : Entry} :
    ofJson v = .ok entry ↔ ∃ members outcome, v = .obj members ∧
      Outcome.ofMembers members = .ok outcome ∧
      entry = ⟨(Json.member? "line" members).getD (.int 0),
        (Json.member? "expression" members).getD (.str ""), outcome⟩ := by
  cases v with
  | obj members =>
      cases outcome : Outcome.ofMembers members with
      | error error => simp [ofJson, outcome, bind, Except.bind]
      | ok made => simp [ofJson, outcome, bind, Except.bind, pure, Except.pure, eq_comm]
  | _ => simp [ofJson]

/-- **Values that agree on the members of an entry are read alike.** Where there is an error, they
need not agree on the result. -/
theorem ofJson_congr {v w : Json} (h : Alike v w) : ofJson v = ofJson w := by
  cases h with
  | same => rfl
  | @objects xs ys line expression error result =>
      have outcome : Outcome.ofMembers xs = Outcome.ofMembers ys := by
        rw [ofMembers_eq, ofMembers_eq, ← error]
        split
        · next noError => rw [result noError]
        · rfl
      simp only [ofJson]
      rw [outcome, line, expression]

/-- Lists fail at the same entry, if they fail. -/
theorem listOfJson_congr {v w : Json} (h : ListsAlike v w) : listOfJson v = listOfJson w := by
  cases h with
  | same => rfl
  | lists alike => exact mapM_congr_of_forall₂ (alike.imp fun _ _ => ofJson_congr)

/-- Whether the value is an object without an error. Such an entry passes if it can be read, which
takes a result. -/
def lacksError : Json → Bool
  | .obj members => (error? members).isNone
  | _ => false

/-- An entry has a value if and only if it was read from an object without an error. -/
theorem isValue_of_ofJson {v : Json} {entry : Entry} (h : ofJson v = .ok entry) :
    lacksError v = entry.outcome.isValue := by
  obtain ⟨members, outcome, rfl, made, rfl⟩ := ofJson_eq_ok_iff.1 h
  rw [ofMembers_eq] at made
  cases error : error? members with
  | none =>
      cases number : Outcome.numberOfJson ((Json.member? "result" members).getD .null) with
      | error _ => simp [error, number, Except.map] at made
      | ok x =>
          obtain rfl : .value x = outcome := by simpa [error, number, Except.map] using made
          simp [lacksError, error, Outcome.isValue]
  | some v =>
      obtain rfl : .failure v.plainText = outcome := by simpa [error] using made
      simp [lacksError, error, Outcome.isValue]

end Entry

namespace Report

/-- The values that the entries of an object are read from. There are none where the member is
missing or is no list. -/
def items (members : List (String × Json)) : List Json :=
  match Json.member? "entries" members with
  | some (.arr items) => items
  | _ => []

/-- A report that can be read is one of an object, with the entries of its list. -/
theorem ofJson_eq_ok_iff {v : Json} {report : Report} :
    ofJson v = .ok report ↔ ∃ members entries, v = .obj members ∧
      Entry.listOfJson ((Json.member? "entries" members).getD (.arr [])) = .ok entries ∧
      report = ⟨(Json.member? "source" members).getD (.str ""),
        (Json.member? "timestamp" members).getD (.str ""), entries⟩ := by
  cases v with
  | obj members =>
      cases listed : Entry.listOfJson ((Json.member? "entries" members).getD (.arr [])) with
      | error error => simp [ofJson, listed, bind, Except.bind]
      | ok entries => simp [ofJson, listed, bind, Except.bind, pure, Except.pure, eq_comm]
  | _ => simp [ofJson]

/-- The objects agree on all that is read of a report: on its source, on its time, and on what is
read of its entries. -/
structure Alike (xs ys : List (String × Json)) : Prop where
  source : Json.Agree "source" xs ys
  timestamp : Json.Agree "timestamp" xs ys
  entries : Option.Rel Entry.ListsAlike (Json.member? "entries" xs) (Json.member? "entries" ys)

/-- **Objects that agree on the members of a report are read alike:** as the same report, or with
the same error. -/
theorem ofJson_congr {xs ys : List (String × Json)} (h : Alike xs ys) :
    ofJson (.obj xs) = ofJson (.obj ys) := by
  have entries : Entry.listOfJson ((Json.member? "entries" xs).getD (.arr [])) =
      Entry.listOfJson ((Json.member? "entries" ys).getD (.arr [])) := by
    have each := h.entries
    generalize Json.member? "entries" xs = v, Json.member? "entries" ys = w at each ⊢
    cases each with
    | none => rfl
    | some alike => exact Entry.listOfJson_congr alike
  simp only [ofJson]
  rw [entries, h.source, h.timestamp]

/-- A value that is no list holds no entries, if it can be read at all. -/
theorem eq_nil_of_listOfJson {v : Json} {entries : List Entry} (noList : ∀ vs, v ≠ .arr vs)
    (h : Entry.listOfJson v = .ok entries) : entries = [] := by
  cases v with
  | arr vs => exact absurd rfl (noList vs)
  | str s =>
      rw [Entry.listOfJson] at h
      split at h <;> cases h
      rfl
  | obj members =>
      rw [Entry.listOfJson] at h
      split at h <;> cases h
      rfl
  | null | bool | int | float => cases h

/-- **Every entry is read from its own value,** in order. So there are as many entries as values,
and counting one is counting the other. -/
theorem forall₂_items {members : List (String × Json)} {report : Report}
    (h : ofJson (.obj members) = .ok report) :
    List.Forall₂ (fun v entry => Entry.ofJson v = .ok entry) (items members) report.entries := by
  obtain ⟨members, entries, ⟨⟩, listed, rfl⟩ := ofJson_eq_ok_iff.1 h
  unfold items
  split
  · next there =>
      rw [there] at listed
      exact forall₂_of_mapM listed
  · next noList =>
      suffices empty : entries = [] by
        rw [empty]
        exact .nil
      rcases there : Json.member? "entries" members with _ | v
      · rw [there] at listed
        exact (Except.ok.inj listed).symm
      · rw [there, Option.getD_some] at listed
        exact eq_nil_of_listOfJson (fun vs isList => noList vs (by rw [there, isList])) listed

/-- **What a report does not depend on, and what its counters say.** Two objects that agree on the
source, on the time, and on the lines, expressions, errors and, where there is no error, the results
of the entries are read as the same report or with the same error, whatever else they hold, counters
of their own included. A report counts the values that its entries are read from, and as passed
those without an error. -/
theorem ofJson_ignores (members : List (String × Json)) :
    (∀ others, Alike members others → ofJson (.obj members) = ofJson (.obj others)) ∧
    ∀ report, ofJson (.obj members) = .ok report →
      report.total = (items members).length ∧
      report.passed = (items members).countP Entry.lacksError ∧
      report.passed + report.failed = report.total := by
  refine ⟨fun others alike => ofJson_congr alike, fun report read => ?_⟩
  have each := forall₂_items read
  have passed : (items members).countP Entry.lacksError =
      report.entries.countP fun entry => entry.outcome.isValue :=
    countP_eq_of_forall₂ (each.imp fun _ _ => Entry.isValue_of_ofJson)
  exact ⟨each.length_eq.symm, passed.symm, report.passed_add_failed⟩

/-- A counter that is wrong, and a result beside an error that is no number. -/
theorem ofJson_ignores_false_counter :
    let entry (result : Json) : Json := .obj [("error", .str "none"), ("result", result)]
    let members : List (String × Json) :=
      [("passed", .int 7), ("entries", .arr [entry (.str "many"), .obj [("result", .float .nan)]])]
    let others : List (String × Json) :=
      [("entries", .arr [entry .null, .obj [("result", .float .nan), ("note", .null)]])]
    ofJson (.obj members) = ofJson (.obj others) ∧ ∃ report, ofJson (.obj members) = .ok report ∧
      report.total = 2 ∧ report.passed = 1 ∧ report.failed = 1 := by
  intro entry members others
  obtain ⟨same, counted⟩ := ofJson_ignores members
  have alike : Alike members others := by
    refine ⟨rfl, rfl, .some (.lists (.cons ?_ (.cons ?_ .nil)))⟩
    · exact .objects rfl rfl rfl nofun
    · exact .objects rfl rfl rfl fun _ => rfl
  have read : ofJson (.obj members) = .ok ⟨.str "", .str "",
      [⟨.int 0, .str "", .failure "none"⟩, ⟨.int 0, .str "", .value .nan⟩]⟩ := rfl
  obtain ⟨total, passed, sum⟩ := counted _ read
  have two : (items members).length = 2 := rfl
  have one : (items members).countP Entry.lacksError = 1 := rfl
  exact ⟨same others alike, _, read, total.trans two, passed.trans one, by omega⟩

end Report

end Abacus
