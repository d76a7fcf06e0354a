import Abacus.Proofs.Report.RoundTrip
import Abacus.Proofs.Workspace.Directories

/-!
# What saving changes

Saving a report changes one file, or none at all. The text is complete before the file is touched,
so an error leaves everything as it was, up to the directories that were made on the way. These hold
nothing but one another.

## Main definitions

* `Report.Prevents` — why a report is not saved.
* `Report.Saves` — saving, step by step.

## Main statements

* `Report.prevents_of_save` — the three causes of an error.
* `Report.save_all_or_nothing` — what a workspace is after saving, and after an error.
-/

namespace Abacus

namespace Workspace

variable {ws : Workspace} {path : Path} {error : PathError} {content : List UInt8}

/-- What prevents the writing of a file. -/
theorem write_eq_error (h : ws.write path content = .error error) :
    (error = .isDirectory ∧ ws.find path = .ok .directory) ∨ ws.locate path = .error error := by
  unfold write at h
  cases located : ws.locate path with
  | error stop =>
      right
      simpa [located, bind, Except.bind] using h
  | ok place =>
      left
      simp only [located, bind, Except.bind] at h
      split at h
      · next here =>
          simp only [throw, throwThe, MonadExceptOf.throw, Except.error.injEq] at h
          exact ⟨h.symm, find_eq_ok_iff.2 ⟨place, located, here⟩⟩
      · cases h

/-- A path leads somewhere if the one without its last step leads to a directory. -/
theorem exists_locate_of_find_parent (found : ws.find path.parent = .ok .directory) :
    ∃ place, ws.locate path = .ok place := by
  obtain ⟨anchor, steps⟩ := path
  rcases List.eq_nil_or_concat steps with rfl | ⟨before, last, rfl⟩
  · exact ⟨_, rfl⟩
  · rw [Path.parent, List.concat_eq_append, List.dropLast_concat] at found
    rw [List.concat_eq_append]
    exact exists_locate_append found last

end Workspace

namespace Report

open Workspace

variable {report : Report} {ws left : Workspace} {path : Path} {error : SaveError}

/-- Why a report is not saved: a number outside the results is not finite, the path leads to a
directory, or a file is where a directory on the way has to be. -/
inductive Prevents (report : Report) (left : Workspace) (path : Path) : SaveError → Prop
  | number : ¬ report.IsFinite → Prevents report left path .notFinite
  | directory : left.find path = .ok .directory → Prevents report left path (.path .isDirectory)
  | file {part : List String} {content : List UInt8} {error : PathError} :
      error = .alreadyExists ∨ error = .notDirectory → part <+: path.parent.steps →
      left.find ⟨path.anchor, part⟩ = .ok (.file content) → Prevents report left path (.path error)

/-- Saving a report, step by step: where it ends with an error, and where a file is written. -/
inductive Saves (report : Report) (ws : Workspace) (path : Path) :
    Workspace × Option SaveError → Prop
  | directories {made : Workspace} {error : PathError} :
      ws.makeDirectories path.parent = (made, some error) →
      Saves report ws path (made, some (.path error))
  | text {made : Workspace} : ws.makeDirectories path.parent = (made, none) → ¬ report.IsFinite →
      Saves report ws path (made, some .notFinite)
  | place {made : Workspace} {error : PathError} :
      ws.makeDirectories path.parent = (made, none) →
      made.write path (Utf8.encode report.toJson.write) = .error error →
      Saves report ws path (made, some (.path error))
  | file {made written : Workspace} : ws.makeDirectories path.parent = (made, none) →
      made.write path (Utf8.encode report.toJson.write) = .ok written →
      Saves report ws path (written, none)

/-- **What saving does**, step by step: directories are made, then the text is, and then the file is
written. Each step may be the last. -/
theorem saves_save (report : Report) (ws : Workspace) (path : Path) :
    Saves report ws path (report.save ws path) := by
  unfold save
  split
  · next made error directories => exact .directories directories
  · next made directories =>
      split
      · next nothing =>
          refine .text directories fun finite => ?_
          rw [Json.write?, if_pos (isFinite_toJson.2 finite)] at nothing
          cases nothing
      · next text texted =>
          obtain ⟨-, same⟩ := Option.ite_none_right_eq_some.1 texted
          obtain rfl := Option.some_inj.1 same
          split
          · next written wrote => exact .file directories wrote
          · next error failed => exact .place directories failed

/-- An error leaves the directories that were made, and no more. -/
theorem eq_makeDirectories_of_save (h : report.save ws path = (left, some error)) :
    left = (ws.makeDirectories path.parent).1 := by
  have saves := saves_save report ws path
  rw [h] at saves
  cases saves with
  | directories directories => rw [directories]
  | text directories => rw [directories]
  | place directories => rw [directories]

/-- **Why a report is not saved.** Each error says what is in the way, in the workspace that saving
leaves. -/
theorem prevents_of_save (anchored : path.IsAnchored)
    (h : report.save ws path = (left, some error)) : report.Prevents left path error := by
  have above : path.parent.IsAnchored := anchored
  have saves := saves_save report ws path
  rw [h] at saves
  cases saves with
  | directories stopped =>
      obtain ⟨which, part, content, short, found⟩ := exists_file_of_makeDirectories above stopped
      exact .file which short found
  | text directories notFinite => exact .number notFinite
  | place directories failed =>
      rcases write_eq_error failed with ⟨rfl, found⟩ | nowhere
      · exact .directory found
      · -- The directory that the file is to stand in has been made.
        obtain ⟨place, located⟩ :=
          exists_locate_of_find_parent (find_of_makeDirectories above directories)
        rw [nowhere] at located
        cases located

/-- A saved file is put where the path leads after the directories are made. -/
theorem exists_put_of_save (h : report.save ws path = (left, none)) :
    ∃ target, (ws.makeDirectories path.parent).1.locate path = .ok target ∧
      (ws.makeDirectories path.parent).1.node? target ≠ some .directory ∧
      left = (ws.makeDirectories path.parent).1.put target
        (.file (Utf8.encode report.toJson.write)) := by
  have saves := saves_save report ws path
  rw [h] at saves
  cases saves with
  | file directories wrote =>
      rw [directories]
      exact write_eq_ok_iff.1 wrote

/-- **Saving changes one file or none.** After an error all files are as they were, nothing is gone,
and what is new are directories on the way that hold nothing but one another; the error has one of
three causes. Without an error the path leads to the complete text of the report, through
directories; where it leads there was a file or nothing, and all other places are as the making of
the directories left them. -/
theorem save_all_or_nothing (report : Report) (ws left : Workspace) (path : Path) :
    (∀ error, report.save ws path = (left, some error) →
      (∀ place content, left.node? place = some (.file content) ↔
        ws.node? place = some (.file content)) ∧
      ws.Extends left path.parent ∧
      (ws.IsTree → left.IsTree ∧ ∀ place, ws.node? place.container = none →
        left.node? place ≠ none → ws.node? place = none ∧ left.node? place = some .directory) ∧
      (path.IsAnchored → report.Prevents left path error)) ∧
    (report.save ws path = (left, none) → ∃ made target,
      ws.Extends made path.parent ∧ made.locate path = .ok target ∧
      ws.node? target ≠ some .directory ∧ (∀ place, place ≠ target →
        left.node? place = made.node? place) ∧
      left.find path = .ok (.file (Utf8.encode report.toJson.write)) ∧
      (∀ part, part <+: path.steps → part ≠ path.steps →
        left.find ⟨path.anchor, part⟩ = .ok .directory) ∧
      (ws.IsTree → left.IsTree)) := by
  have extended := makeDirectories_extends ws path.parent
  constructor
  · intro error failed
    -- What is left is what the making of the directories left, wherever saving stopped.
    have same := eq_makeDirectories_of_save failed
    rw [← same] at extended
    refine ⟨fun place content => extended.file_iff, extended, ?_, ?_⟩
    · intro tree
      have trees := tree.makeDirectories path.parent
      rw [← same] at trees
      exact ⟨trees, fun place missing there => extended.new_of_container tree missing there⟩
    · intro anchored
      exact prevents_of_save anchored failed
  · intro saved
    obtain ⟨target, located, free, rfl⟩ := exists_put_of_save saved
    -- Writing a file changes no directory, so the path still leads to the same place.
    have there : ((ws.makeDirectories path.parent).1.put target
        (.file (Utf8.encode report.toJson.write))).locate path = .ok target :=
      follow_put free _ located
    refine ⟨_, target, extended, located, ?_, ?_, ?_, ?_, ?_⟩
    · exact fun directory => free (extended.kept target _ directory)
    · exact fun place apart => node?_put_of_ne apart _ _
    · exact find_eq_ok_iff.2 ⟨target, there, node?_put_self (isFixed_eq_false free) _ _⟩
    · exact fun part initial proper => find_of_locate there initial proper
    · intro tree
      have made := tree.makeDirectories path.parent
      exact made.put free (made.directory_container_of_locate located) _

/-- A report with an undefined time leaves an earlier one in its file, and another report is saved
in a new directory. -/
theorem save_beside_earlier :
    let ws : Workspace := Workspace.empty.put ["report"] (.file [123, 125])
    (∃ left, save ⟨.str "sums", .float .nan, []⟩ ws ⟨"", ["report"]⟩ = (left, some .notFinite) ∧
      left.node? ["report"] = some (.file [123, 125]) ∧ left.IsTree) ∧
    ∃ left, save ⟨.str "sums", .null, []⟩ ws ⟨"", ["new", "report"]⟩ = (left, none) ∧
      left.find ⟨"", ["new"]⟩ = .ok .directory ∧ left.IsTree := by
  intro ws
  have tree : ws.IsTree := isTree_empty.put (by decide) (by decide) _
  constructor
  · have failed : save ⟨.str "sums", .float .nan, []⟩ ws ⟨"", ["report"]⟩ =
        (ws, some .notFinite) := rfl
    obtain ⟨files, -, trees, -⟩ := (save_all_or_nothing _ _ _ _).1 _ failed
    exact ⟨ws, failed, (files _ _).2 (by decide), (trees tree).1⟩
  · have finite : IsFinite ⟨.str "sums", .null, []⟩ := by simp [IsFinite, Json.isFinite]
    have writable : ws.Writable ⟨"", ["new", "report"]⟩ :=
      ⟨ws.put ["new"] .directory, ["new", "report"], rfl, rfl, by decide⟩
    obtain ⟨left, saved⟩ := exists_save_iff.2 ⟨finite, writable⟩
    obtain ⟨-, -, -, -, -, -, -, directories, trees⟩ := (save_all_or_nothing _ _ left _).2 saved
    exact ⟨left, saved, directories ["new"] (by decide) (by decide), trees tree⟩

end Report

end Abacus
