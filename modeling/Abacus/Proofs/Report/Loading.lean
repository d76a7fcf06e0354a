import Abacus.Proofs.Binary64.Value
import Abacus.Proofs.Json.Nesting
import Abacus.Proofs.Json.Reading
import Abacus.Proofs.Json.Writing
import Abacus.Report.Storage

/-!
# Files that cannot be loaded

Loading tells a report from anything else, for all files but two kinds: those whose text is nested
too deep, and those in which a result is an integer beyond the binary64 numbers, behind entries that
can be read. Every other defect of a file, whatever its bytes, makes it a file without a report.

## Main definitions

* `Report.HoldsText` — the text in a file.
* `Report.TooLarge` — a text with a result beyond the binary64 numbers.

## Main statements

* `Report.ofJson_eq_numberTooLarge_iff` — the one defect of a JSON value that is not passed over.
* `Report.exists_load_eq_ok_iff` — the files of which it is told whether they hold a report.
-/

namespace Abacus

/-- A list is read up to the first part that cannot be read. -/
theorem mapM_eq_error_iff {α β ε : Type} {f : α → Except ε β} {xs : List α} {error : ε} :
    xs.mapM f = .error error ↔ ∃ before x after, xs = before ++ x :: after ∧
      (∀ y ∈ before, ∃ z, f y = .ok z) ∧ f x = .error error := by
  induction xs with
  | nil => simp [pure, Except.pure]
  | cons x xs ih =>
      rw [List.mapM_cons]
      constructor
      · intro failed
        cases first : f x with
        | error _ =>
            rw [first] at failed
            cases failed
            exact ⟨[], x, xs, rfl, List.forall_mem_nil _, first⟩
        | ok z =>
            have later : xs.mapM f = .error error := by
              rw [first] at failed
              cases others : xs.mapM f with
              | error _ =>
                  rw [others] at failed
                  exact failed
              | ok zs =>
                  rw [others] at failed
                  cases failed
            obtain ⟨before, y, after, rfl, read, last⟩ := ih.1 later
            exact ⟨x :: before, y, after, rfl, List.forall_mem_cons.2 ⟨⟨z, first⟩, read⟩, last⟩
      · rintro ⟨before, y, after, split, read, last⟩
        cases before with
        | nil =>
            obtain ⟨rfl, rfl⟩ := List.cons.inj split
            rw [last]
            rfl
        | cons x' before =>
            obtain ⟨rfl, rfl⟩ := List.cons.inj split
            obtain ⟨⟨z, first⟩, read⟩ := List.forall_mem_cons.1 read
            rw [first, ih.2 ⟨before, y, after, rfl, read, last⟩]
            rfl

/-- What is done with a value that could be read cannot fail. -/
theorem bind_pure_eq_error_iff {α β ε : Type} {read : Except ε α} {f : α → β} {error : ε} :
    (read >>= fun x => pure (f x)) = .error error ↔ read = .error error := by
  cases read <;> simp [bind, Except.bind, pure, Except.pure]

/-- A result that is no number of the right size is an integer. -/
theorem Outcome.numberOfJson_eq_numberTooLarge_iff {v : Json} :
    numberOfJson v = .error .numberTooLarge ↔
      ∃ n, v = .int n ∧ (Binary64.ofInt n).isFinite = false := by
  cases v with
  | int n => cases h : (Binary64.ofInt n).isFinite <;> simp [numberOfJson, h]
  | str s => cases h : Numeral.real? s <;> simp [numberOfJson, h]
  | _ => simp [numberOfJson]

/-- The members hold no error, and a result beyond the binary64 numbers. Only integers get there: a
decimal that is too large is read as infinite. -/
def Entry.TooLarge (members : List (String × Json)) : Prop :=
  (Json.member? "error" members).getD .null = .null ∧
    ∃ n, Json.member? "result" members = some (.int n) ∧ (Binary64.ofInt n).isFinite = false

theorem Entry.ofJson_eq_numberTooLarge_iff {v : Json} :
    ofJson v = .error .numberTooLarge ↔ ∃ members, v = .obj members ∧ TooLarge members := by
  have outcome (members : List (String × Json)) :
      Outcome.ofMembers members = .error .numberTooLarge ↔ TooLarge members := by
    unfold Outcome.ofMembers
    split
    · next noError =>
        have number : ((Outcome.numberOfJson ((Json.member? "result" members).getD .null)).map
            Outcome.value = .error .numberTooLarge) ↔
            ∃ n, (Json.member? "result" members).getD .null = .int n ∧
              (Binary64.ofInt n).isFinite = false :=
          bind_pure_eq_error_iff.trans Outcome.numberOfJson_eq_numberTooLarge_iff
        rw [number]
        cases result : Json.member? "result" members <;> simp [TooLarge, noError, result]
    · next anError =>
        have noOther : (Json.member? "error" members).getD .null ≠ .null := anError
        simp [TooLarge, noOther]
  cases v with
  | obj members =>
      have failed : ofJson (.obj members) = .error .numberTooLarge ↔
          Outcome.ofMembers members = .error .numberTooLarge := bind_pure_eq_error_iff
      simp [failed, outcome]
  | _ => simp [ofJson]

namespace Report

/-- Entries of which the first that cannot be read has a result beyond the binary64 numbers. An
entry with another fault before it makes the file hold no report instead. -/
def TooLarge (members : List (String × Json)) : Prop :=
  ∃ before entry after,
    Json.member? "entries" members = some (.arr (before ++ .obj entry :: after)) ∧
    (∀ v ∈ before, ∃ e, Entry.ofJson v = .ok e) ∧ Entry.TooLarge entry

/-- **The one defect of a JSON value that is not passed over:** a result that is an integer beyond
the numbers, where all entries before it can be read. -/
theorem ofJson_eq_numberTooLarge_iff {v : Json} :
    ofJson v = .error .numberTooLarge ↔ ∃ members, v = .obj members ∧ TooLarge members := by
  have listed {v : Json} : Entry.listOfJson v = .error .numberTooLarge ↔
      ∃ before entry after, v = .arr (before ++ .obj entry :: after) ∧
        (∀ w ∈ before, ∃ e, Entry.ofJson w = .ok e) ∧ Entry.TooLarge entry := by
    cases v with
    | arr items =>
        simp only [Entry.listOfJson, mapM_eq_error_iff, Entry.ofJson_eq_numberTooLarge_iff,
          Json.arr.injEq]
        constructor
        · rintro ⟨before, _, after, split, read, entry, rfl, large⟩
          exact ⟨before, entry, after, split, read, large⟩
        · rintro ⟨before, entry, after, split, read, large⟩
          exact ⟨before, _, after, split, read, entry, rfl, large⟩
    | str s => cases h : s.isEmpty <;> simp [Entry.listOfJson, h]
    | obj members => cases h : members.isEmpty <;> simp [Entry.listOfJson, h]
    | _ => simp [Entry.listOfJson]
  cases v with
  | obj members =>
      have failed : ofJson (.obj members) = .error .numberTooLarge ↔
          Entry.listOfJson ((Json.member? "entries" members).getD (.arr [])) =
            .error .numberTooLarge := bind_pure_eq_error_iff
      rw [failed, listed]
      cases entries : Json.member? "entries" members <;> simp [TooLarge, entries]
  | _ => simp [ofJson]

variable {ws : Workspace} {path : Path}

/-- There is a file at the path, and its bytes are a text. A file that is not there and one that is
no text are alike to loading. -/
def HoldsText (ws : Workspace) (path : Path) (text : String) : Prop :=
  ∃ bytes, ws.read path = .ok bytes ∧ Utf8.decode bytes = .ok text

/-- **The files of which it is told whether they hold a report:** all but those whose text is nested
too deep or has a result beyond the binary64 numbers. -/
theorem exists_load_eq_ok_iff :
    (∃ found, load ws path = .ok found) ↔ ∀ text, HoldsText ws path text →
      ¬ Json.TooDeep text ∧
        ∀ members, Json.read text = .ok (.obj members) → ¬ TooLarge members := by
  unfold load
  cases content : ws.read path with
  | error error => simp [HoldsText, content]
  | ok bytes =>
      cases decoded : Utf8.decode bytes with
      | error fault => simp [HoldsText, content, ofBytes, decoded]
      | ok text =>
          have only (other : String) : HoldsText ws path other ↔ other = text := by
            simp [HoldsText, content, decoded, eq_comm]
          simp only [only, forall_eq, ← Json.read_eq_tooDeep_iff, ofBytes, decoded]
          cases read : Json.read text with
          | error error => cases error <;> simp
          | ok json =>
              have large : (∀ members, json = .obj members → ¬ TooLarge members) ↔
                  ofJson json ≠ .error .numberTooLarge := by
                rw [ne_eq, ofJson_eq_numberTooLarge_iff]
                simp
              simp only [Except.ok.injEq, large]
              cases report : ofJson json with
              | error error => cases error <;> simp
              | ok report => simp

/-- A file of strict JSON with a whole number beyond the binary64 numbers as its one result. -/
theorem load_large_result {n : Nat} (large : Binary64.limit ≤ n * Binary64.one / 1)
    (digits : Decimal.digitCount n ≤ Numeral.maxIntegerDigits) {v : Json}
    (shape : v = .obj [("entries", .arr [.obj [("result", .int n)]])])
    (content : ws.read path = .ok (Utf8.encode v.write)) :
    load ws path = .error .numberTooLarge := by
  have infinite : (Binary64.ofInt n).isFinite = false := by
    rw [Binary64.ofInt, Int.natAbs_natCast, Binary64.nearest_eq_infinite _ large]
    rfl
  have fits : Json.Fits Json.nestingLimit v := by
    rw [shape]
    refine .obj (List.nodup_singleton _) (List.forall_mem_singleton.2 ?_)
    refine .arr (List.forall_mem_singleton.2 ?_)
    exact .obj (List.nodup_singleton _) (List.forall_mem_singleton.2 (.int digits))
  have finite : v.isFinite = true := by
    rw [shape]
    rfl
  have defect : ofJson v = .error .numberTooLarge := by
    have last : Entry.TooLarge [("result", .int n)] := ⟨rfl, n, rfl, infinite⟩
    exact ofJson_eq_numberTooLarge_iff.2 ⟨_, shape, [], _, [], rfl,
      List.forall_mem_nil _, last⟩
  have read := Json.read_of_isText (Json.isText_write fits finite) fits
  rw [load, content]
  simp only [ofBytes, Utf8.decode_encode, read, defect]

/-- A one and four hundred zeros. -/
theorem not_exists_load_large_result :
    ¬ ∃ found, load ⟨[(["report"], .file (Utf8.encode (Json.write (.obj [("entries", .arr [.obj
      [("result", .int (Decimal.ofDigits ('1' :: List.replicate 400 '0')))]])]))))]⟩
      ⟨"", ["report"]⟩ = .ok found := by
  have whole : Numeral.IsWhole ('1' :: List.replicate 400 '0') :=
    ⟨⟨List.cons_ne_nil _ _, List.forall_mem_cons.2 ⟨rfl, fun _ => Decimal.isDigit_of_mem_zeros⟩⟩,
      fun zero => absurd (Option.some.inj zero) (by decide)⟩
  have digits : Decimal.digitCount (Decimal.ofDigits ('1' :: List.replicate 400 '0')) ≤
      Numeral.maxIntegerDigits := by
    rw [Decimal.digitCount, Decimal.digits_ofDigits whole, List.length_cons,
      List.length_replicate]
    decide
  rintro ⟨found, loaded⟩
  rw [load_large_result (by decide +kernel) digits rfl rfl] at loaded
  cases loaded

end Report

end Abacus
