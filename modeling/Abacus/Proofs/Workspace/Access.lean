import Mathlib
import Abacus.Workspace

/-!
# Files that are written and read

What is written to a path is read from it. The reason is that a file takes the place of no
directory, so that every path leads where it led before.

## Main definitions

* `Workspace.Writable` — a file can be put at the path.

## Main statements

* `Workspace.read_write` — what is written is read.
* `Workspace.exists_read_eq_error_iff` — only files are read.
-/

namespace Abacus.Workspace

variable {ws : Workspace} {path : Path}

/-- A file can be put at the path: the directories that lead there are there or can be made, and the
path does not lead to a directory itself. -/
def Writable (ws : Workspace) (path : Path) : Prop :=
  ∃ made place, ws.makeDirectories path.parent = (made, none) ∧ made.locate path = .ok place ∧
    made.node? place ≠ some .directory

/-- A place that is no directory is none of the fixed ones. -/
theorem isFixed_eq_false {place : Place} (h : ws.node? place ≠ some .directory) :
    place.isFixed = false := by
  by_contra fixed
  rw [Bool.not_eq_false] at fixed
  exact h (if_pos fixed)

/-- A node in the place of no directory leads no path astray. -/
theorem follow_put {place : Place} (h : ws.node? place ≠ some .directory) (node : Node)
    {start final : Place} {steps : List String} (led : ws.follow start steps = .ok final) :
    (ws.put place node).follow start steps = .ok final := by
  induction steps generalizing start with
  | nil => exact led
  | cons step rest ih =>
      rw [follow] at led ⊢
      cases here : ws.node? start with
      | none => simp [here] at led
      | some found =>
          cases found with
          | file content => simp [here] at led
          | directory =>
              have apart : start ≠ place := by
                rintro rfl
                exact h here
              rw [node?_put_of_ne apart, here]
              simp only [here] at led
              exact ih led

/-- Where something is written there was no directory. -/
theorem write_eq_ok_iff {content : List UInt8} {written : Workspace} :
    ws.write path content = .ok written ↔
      ∃ place, ws.locate path = .ok place ∧ ws.node? place ≠ some .directory ∧
        written = ws.put place (.file content) := by
  unfold write
  cases ws.locate path with
  | error error => simp [bind, Except.bind]
  | ok place =>
      simp only [bind, Except.bind, Except.ok.injEq, exists_eq_left']
      split
      · next directory => simp [directory, throw, throwThe, MonadExceptOf.throw]
      · next other =>
          have free : ws.node? place ≠ some .directory := other
          simp [free, pure, Except.pure, eq_comm]

/-- **What is written is read.** The path need not have led to a file before. -/
theorem read_write {content : List UInt8} {written : Workspace}
    (h : ws.write path content = .ok written) : written.read path = .ok content := by
  obtain ⟨place, located, free, rfl⟩ := write_eq_ok_iff.1 h
  have found : (ws.put place (.file content)).locate path = .ok place := follow_put free _ located
  have there : (ws.put place (.file content)).node? place = some (.file content) :=
    node?_put_self (isFixed_eq_false free) ws _
  simp [read, find, found, there, bind, Except.bind, pure, Except.pure]

/-- The file at a path that can be written. -/
theorem Writable.exists_write (h : ws.Writable path) (content : List UInt8) :
    ∃ made written, ws.makeDirectories path.parent = (made, none) ∧
      made.write path content = .ok written ∧ written.read path = .ok content := by
  obtain ⟨made, place, directories, located, free⟩ := h
  have written : made.write path content = .ok (made.put place (.file content)) :=
    write_eq_ok_iff.2 ⟨place, located, free, rfl⟩
  exact ⟨made, _, directories, written, read_write written⟩

/-- **Only files are read.** There is no other reason for which reading fails. -/
theorem exists_read_eq_error_iff :
    (∃ error, ws.read path = .error error) ↔ ws.isFile path = false := by
  unfold read isFile
  cases ws.find path with
  | error error => simp [bind, Except.bind]
  | ok node => cases node <;> simp [bind, Except.bind, throw, throwThe, MonadExceptOf.throw, pure,
      Except.pure]

end Abacus.Workspace
