import Abacus.Proofs.Workspace.Access

/-!
# Directories that are made

Making the directories on a way changes nothing else: whatever stood in the workspace stays, and
what is new is a directory that a part of the path leads to. This holds after an error too, when the
directories that were made before it are not removed.

## Main definitions

* `Path.IsAnchored` — the path starts at the working directory or at a root.
* `Workspace.Extends` — nothing differs but new directories on the way of a path.
* `Workspace.IsTree` — everything stands in a directory.

## Main statements

* `Workspace.makeDirectories_extends` — making directories extends the workspace.
* `Workspace.find_of_makeDirectories` — the directories are there.
* `Workspace.exists_file_of_makeDirectories` — what prevents them is a file.
* `Workspace.IsTree.put` — what is put into a directory keeps the tree.
-/

namespace Abacus

/-- The path starts at the working directory or at a root. Every path that is spelled does; others
can be put together, but stand for nothing. -/
def Path.IsAnchored (path : Path) : Prop :=
  path.anchor = "" ∨ path.anchor = "/" ∨ path.anchor = "//"

/-- The path of a text is anchored. -/
theorem Path.isAnchored_ofText (text : String) : (ofText text).IsAnchored := by
  simp only [IsAnchored, ofText]
  split
  · exact .inl rfl
  · exact .inr (.inr rfl)
  · exact .inr (.inl rfl)

namespace Workspace

variable {ws made all : Workspace} {path : Path} {place start final : Place} {node : Node}
  {steps before : List String} {anchor : String} {error : PathError}

/-! ### Where steps lead -/

/-- Later steps go on where earlier ones end. -/
theorem follow_append (ws : Workspace) (start : Place) (xs ys : List String) :
    ws.follow start (xs ++ ys) = (ws.follow start xs).bind fun place => ws.follow place ys := by
  induction xs generalizing start with
  | nil => rfl
  | cons step rest ih =>
      rw [List.cons_append, follow, follow]
      cases ws.node? start with
      | none => rfl
      | some node =>
          cases node with
          | file content => rfl
          | directory => exact ih _

/-- Steps are taken from directories. -/
theorem directory_of_follow_cons {step : String} {rest : List String}
    (led : ws.follow start (step :: rest) = .ok final) : ws.node? start = some .directory := by
  rw [follow] at led
  cases here : ws.node? start with
  | none => simp [here] at led
  | some node =>
      cases node with
      | file content => simp [here] at led
      | directory => rfl

/-- Steps that lead nowhere stop at a file or at nothing. -/
theorem exists_of_follow_eq_error (h : ws.follow start steps = .error error) :
    ∃ before place, before <+: steps ∧ ws.follow start before = .ok place ∧
      ((error = .notDirectory ∧ ∃ content, ws.node? place = some (.file content)) ∨
        (error = .notFound ∧ ws.node? place = none)) := by
  induction steps generalizing start with
  | nil => cases h
  | cons step rest ih =>
      rw [follow] at h
      cases here : ws.node? start with
      | none =>
          simp only [here] at h
          exact ⟨[], start, List.nil_prefix, rfl, .inr ⟨(Except.error.inj h).symm, here⟩⟩
      | some node =>
          cases node with
          | file content =>
              simp only [here] at h
              exact ⟨[], start, List.nil_prefix, rfl,
                .inl ⟨(Except.error.inj h).symm, content, here⟩⟩
          | directory =>
              simp only [here] at h
              obtain ⟨before, place, initial, led, stop⟩ := ih h
              refine ⟨step :: before, place, List.cons_prefix_cons.2 ⟨rfl, initial⟩, ?_, stop⟩
              rw [follow, here]
              exact led

/-- Steps lead where they led before, if no directory is gone. -/
theorem follow_of_directories
    (kept : ∀ place, ws.node? place = some .directory → made.node? place = some .directory)
    (led : ws.follow start steps = .ok final) : made.follow start steps = .ok final := by
  induction steps generalizing start with
  | nil => exact led
  | cons step rest ih =>
      have here := directory_of_follow_cons led
      rw [follow] at led ⊢
      simp only [here] at led
      simp only [kept start here]
      exact ih led

/-- What a path leads to stands at the place that it leads to. -/
theorem find_eq_ok_iff :
    ws.find path = .ok node ↔ ∃ place, ws.locate path = .ok place ∧ ws.node? place = some node := by
  unfold find
  cases ws.locate path with
  | error error => simp [bind, Except.bind]
  | ok place =>
      simp only [bind, Except.bind, Except.ok.injEq, exists_eq_left']
      cases ws.node? place <;> simp [pure, Except.pure, throw, throwThe, MonadExceptOf.throw]

/-- A path starts at a directory. -/
theorem find_nil (anchored : path.IsAnchored) :
    ws.find ⟨path.anchor, []⟩ = .ok .directory := by
  rw [find_eq_ok_iff]
  rcases anchored with same | same | same <;> rw [same]
  · exact ⟨[], rfl, rfl⟩
  · exact ⟨["/"], rfl, rfl⟩
  · exact ⟨["//"], rfl, rfl⟩

/-- The steps of a path that leads somewhere are taken from directories. -/
theorem find_of_locate (located : ws.locate path = .ok place) (initial : before <+: path.steps)
    (proper : before ≠ path.steps) : ws.find ⟨path.anchor, before⟩ = .ok .directory := by
  obtain ⟨rest, split⟩ := initial
  rw [locate, ← split, follow_append] at located
  cases led : ws.follow (if path.anchor.isEmpty then [] else [path.anchor]) before with
  | error error =>
      rw [led] at located
      cases located
  | ok place =>
      cases rest with
      | nil => exact absurd (by simpa using split) proper
      | cons step rest =>
          rw [led] at located
          exact find_eq_ok_iff.2 ⟨place, led, directory_of_follow_cons located⟩

/-- From a directory one more step leads somewhere. -/
theorem exists_locate_append (found : ws.find ⟨anchor, before⟩ = .ok .directory) (step : String) :
    ∃ place, ws.locate ⟨anchor, before ++ [step]⟩ = .ok place := by
  obtain ⟨place, located, here⟩ := find_eq_ok_iff.1 found
  refine ⟨if step = ".." then place.container else place ++ [step], ?_⟩
  rw [locate] at located ⊢
  rw [follow_append, located]
  simp only [Except.bind, follow, here]

/-! ### Extensions -/

/-- Everything stands in a directory. A workspace is any list of places and nodes, so this is a
property of it and no matter of course. -/
def IsTree (ws : Workspace) : Prop :=
  ∀ place, ws.node? place ≠ none → ws.node? place.container = some .directory

/-- All that was there is still there, and what is new are directories that a part of the path leads
to. -/
structure Extends (ws made : Workspace) (path : Path) : Prop where
  kept : ∀ place node, ws.node? place = some node → made.node? place = some node
  new : ∀ place, ws.node? place = none → made.node? place = none ∨
    made.node? place = some .directory ∧
      ∃ steps, steps <+: path.steps ∧ made.locate ⟨path.anchor, steps⟩ = .ok place

theorem Extends.refl (ws : Workspace) (path : Path) : ws.Extends ws path :=
  ⟨fun _ _ there => there, fun _ missing => .inl missing⟩

/-- An extension leads no path astray. -/
theorem Extends.locate {other : Path} (h : ws.Extends made path)
    (located : ws.locate other = .ok place) : made.locate other = .ok place :=
  follow_of_directories (fun place there => h.kept place _ there) located

/-- An extension has the same files. -/
theorem Extends.file_iff {content : List UInt8} (h : ws.Extends made path) :
    made.node? place = some (.file content) ↔ ws.node? place = some (.file content) := by
  refine ⟨fun there => ?_, h.kept place _⟩
  cases before : ws.node? place with
  | none => rcases h.new place before with missing | ⟨directory, -⟩ <;> simp_all
  | some node => rw [← there, h.kept place node before]

/-- Whatever stands in a new directory is a new directory. -/
theorem Extends.new_of_container (h : ws.Extends made path) (tree : ws.IsTree)
    (missing : ws.node? place.container = none) (there : made.node? place ≠ none) :
    ws.node? place = none ∧ made.node? place = some .directory := by
  have nothing : ws.node? place = none := by
    by_contra here
    rw [tree place here] at missing
    cases missing
  rcases h.new place nothing with absent | ⟨directory, -⟩
  · exact absurd absent there
  · exact ⟨nothing, directory⟩

/-- An extension on the way of a part of a path, and then on the way of the path. -/
theorem Extends.trans (h : ws.Extends made ⟨anchor, before⟩) (h' : made.Extends all ⟨anchor, steps⟩)
    (initial : before <+: steps) : ws.Extends all ⟨anchor, steps⟩ := by
  constructor
  · intro place node there
    exact h'.kept place node (h.kept place node there)
  · intro place missing
    rcases h.new place missing with missing | ⟨there, part, short, located⟩
    · exact h'.new place missing
    · exact .inr ⟨h'.kept place _ there, part, short.trans initial, h'.locate located⟩

/-! ### Making directories -/

/-- What making one directory does. -/
theorem makeDirectory_eq_ok_iff : ws.makeDirectory path = .ok made ↔
    ∃ place, ws.locate path = .ok place ∧
      (ws.node? place = some .directory ∧ made = ws ∨
        ws.node? place = none ∧ made = ws.put place .directory) := by
  unfold makeDirectory
  cases ws.locate path with
  | error error => simp [bind, Except.bind]
  | ok place =>
      simp only [bind, Except.bind, Except.ok.injEq, exists_eq_left']
      cases ws.node? place with
      | none => simp [pure, Except.pure, eq_comm]
      | some node =>
          cases node <;> simp [pure, Except.pure, throw, throwThe, MonadExceptOf.throw, eq_comm]

/-- What prevents the making of one directory. -/
theorem makeDirectory_eq_error (h : ws.makeDirectory path = .error error) :
    (error = .alreadyExists ∧ ∃ content, ws.find path = .ok (.file content)) ∨
      ws.locate path = .error error := by
  unfold makeDirectory at h
  cases located : ws.locate path with
  | error stop =>
      right
      simpa [located, bind, Except.bind] using h
  | ok place =>
      left
      simp only [located, bind, Except.bind] at h
      cases here : ws.node? place with
      | none => simp [here, pure, Except.pure] at h
      | some node =>
          cases node with
          | directory => simp [here, pure, Except.pure] at h
          | file content =>
              simp only [here, throw, throwThe, MonadExceptOf.throw, Except.error.injEq] at h
              exact ⟨h.symm, content, find_eq_ok_iff.2 ⟨place, located, here⟩⟩

/-- A directory that is made is there. -/
theorem find_of_makeDirectory (h : ws.makeDirectory path = .ok made) :
    made.find path = .ok .directory := by
  obtain ⟨place, located, ⟨there, rfl⟩ | ⟨missing, rfl⟩⟩ := makeDirectory_eq_ok_iff.1 h
  · exact find_eq_ok_iff.2 ⟨place, located, there⟩
  · have free : ws.node? place ≠ some .directory := by simp [missing]
    exact find_eq_ok_iff.2 ⟨place, follow_put free _ located,
      node?_put_self (isFixed_eq_false free) ws _⟩

/-- Making one directory extends the workspace. -/
theorem makeDirectory_extends (h : ws.makeDirectory path = .ok made) : ws.Extends made path := by
  obtain ⟨place, located, ⟨there, rfl⟩ | ⟨missing, rfl⟩⟩ := makeDirectory_eq_ok_iff.1 h
  · exact .refl _ _
  · have free : ws.node? place ≠ some .directory := by simp [missing]
    constructor
    · intro other node there
      have apart : other ≠ place := by
        rintro rfl
        rw [missing] at there
        cases there
      rwa [node?_put_of_ne apart]
    · intro other nothing
      by_cases same : other = place
      · subst same
        exact .inr ⟨node?_put_self (isFixed_eq_false free) ws _, path.steps, List.prefix_rfl,
          follow_put free _ located⟩
      · rw [node?_put_of_ne same]
        exact .inl nothing

theorem reverse_prefix_reverse_cons (last : String) (before : List String) :
    before.reverse <+: (last :: before).reverse := by
  rw [List.reverse_cons]
  exact List.prefix_append _ _

/-- Making directories extends the workspace, also where an error ends it. -/
theorem makeAll_extends (ws : Workspace) (anchor : String) (steps : List String) :
    ws.Extends (ws.makeAll anchor steps).1 ⟨anchor, steps.reverse⟩ := by
  induction steps with
  | nil => exact .refl _ _
  | cons last before ih =>
      have initial := reverse_prefix_reverse_cons last before
      unfold makeAll
      dsimp only
      split
      · next made => exact makeDirectory_extends made
      · split
        · next failed =>
            rw [failed] at ih
            exact ih.trans (.refl _ _) initial
        · next containing =>
            rw [containing] at ih
            split
            · next made => exact ih.trans (makeDirectory_extends made) initial
            · exact ih.trans (.refl _ _) initial
      · exact .refl _ _

/-- Directories that are made are there. -/
theorem find_of_makeAll (anchored : path.IsAnchored)
    (h : ws.makeAll path.anchor steps = (made, none)) :
    made.find ⟨path.anchor, steps.reverse⟩ = .ok .directory := by
  cases steps with
  | nil => exact find_nil anchored
  | cons last before =>
      unfold makeAll at h
      dsimp only at h
      split at h
      · next found =>
          cases h
          exact find_of_makeDirectory found
      · split at h
        · cases h
        · split at h
          · next found =>
              cases h
              exact find_of_makeDirectory found
          · cases h
      · cases h

/-- What prevents directories is a file on the way, or in their place. -/
theorem exists_file_of_makeAll (anchored : path.IsAnchored)
    (h : ws.makeAll path.anchor steps = (made, some error)) :
    (error = .alreadyExists ∨ error = .notDirectory) ∧
      ∃ part content, part <+: steps.reverse ∧
        made.find ⟨path.anchor, part⟩ = .ok (.file content) := by
  induction steps generalizing made error with
  | nil => cases h
  | cons last before ih =>
      have initial := reverse_prefix_reverse_cons last before
      unfold makeAll at h
      dsimp only at h
      split at h
      · cases h
      · split at h
        · next failed =>
            cases h
            obtain ⟨which, part, content, short, found⟩ := ih failed
            exact ⟨which, part, content, short.trans initial, found⟩
        · next containing =>
            split at h
            · cases h
            · next failed =>
                cases h
                rcases makeDirectory_eq_error failed with ⟨rfl, content, found⟩ | nowhere
                · exact ⟨.inl rfl, _, content, List.prefix_rfl, found⟩
                · -- The containing directory is there now.
                  obtain ⟨place, located⟩ :=
                    exists_locate_append (find_of_makeAll anchored containing) last
                  rw [← List.reverse_cons, nowhere] at located
                  cases located
      · next notMissing failed =>
          cases h
          rcases makeDirectory_eq_error failed with ⟨rfl, content, found⟩ | nowhere
          · exact ⟨.inl rfl, _, content, List.prefix_rfl, found⟩
          · obtain ⟨part, place, short, led, ⟨rfl, content, here⟩ | ⟨rfl, -⟩⟩ :=
              exists_of_follow_eq_error nowhere
            · exact ⟨.inr rfl, part, content, short, find_eq_ok_iff.2 ⟨place, led, here⟩⟩
            · exact absurd rfl notMissing

/-- **Making directories extends the workspace**, also where an error ends it. -/
theorem makeDirectories_extends (ws : Workspace) (path : Path) :
    ws.Extends (ws.makeDirectories path).1 path := by
  have result := makeAll_extends ws path.anchor path.steps.reverse
  rwa [List.reverse_reverse] at result

/-- **Directories that are made are there,** also those that were there before. -/
theorem find_of_makeDirectories (anchored : path.IsAnchored)
    (h : ws.makeDirectories path = (made, none)) : made.find path = .ok .directory := by
  have found := find_of_makeAll anchored h
  rwa [List.reverse_reverse] at found

/-- **What prevents directories is a file** on the way, or in their place. -/
theorem exists_file_of_makeDirectories (anchored : path.IsAnchored)
    (h : ws.makeDirectories path = (made, some error)) :
    (error = .alreadyExists ∨ error = .notDirectory) ∧
      ∃ part content, part <+: path.steps ∧
        made.find ⟨path.anchor, part⟩ = .ok (.file content) := by
  have stopped := exists_file_of_makeAll anchored h
  rwa [List.reverse_reverse] at stopped

/-! ### Trees -/

theorem node?_of_isFixed (ws : Workspace) (fixed : place.isFixed = true) :
    ws.node? place = some .directory :=
  if_pos fixed

/-- The directories that are in every workspace stand in one another. -/
theorem isFixed_container (fixed : place.isFixed = true) : place.container.isFixed = true := by
  unfold Place.container
  split
  · rfl
  · rfl
  · next noRoot noRoots =>
      rw [Place.isFixed, Bool.or_eq_true, Bool.or_eq_true, beq_iff_eq, beq_iff_eq] at fixed
      obtain (above | root) | roots := fixed
      · rw [if_pos above, Place.isFixed, List.all_append, above]
        rfl
      · exact absurd root noRoot
      · exact absurd roots noRoots

theorem container_of_isFixed_eq_false (h : place.isFixed = false) :
    place.container = place.dropLast := by
  simp only [Place.isFixed, Bool.or_eq_false_iff, beq_eq_false_iff_ne] at h
  obtain ⟨⟨notAbove, noRoot⟩, noRoots⟩ := h
  unfold Place.container
  split
  · exact absurd rfl noRoot
  · exact absurd rfl noRoots
  · rw [if_neg (by simp [notAbove])]

/-- A step from a directory leads to a place in a directory. -/
theorem directory_container_append (here : ws.node? place = some .directory) (step : String) :
    ws.node? (Place.container (place ++ [step])) = some .directory := by
  cases fixed : Place.isFixed (place ++ [step]) with
  | true => exact node?_of_isFixed ws (isFixed_container fixed)
  | false => rwa [container_of_isFixed_eq_false fixed, List.dropLast_concat]

/-- In a tree, steps lead to places in directories. -/
theorem IsTree.directory_container (tree : ws.IsTree)
    (inside : ws.node? start.container = some .directory)
    (led : ws.follow start steps = .ok place) : ws.node? place.container = some .directory := by
  induction steps generalizing start with
  | nil =>
      obtain rfl := Except.ok.inj led
      exact inside
  | cons step rest ih =>
      have here := directory_of_follow_cons led
      rw [follow] at led
      simp only [here] at led
      refine ih ?_ led
      split
      · exact tree _ (by simp [inside])
      · exact directory_container_append here step

/-- A path leads to a place in a directory. -/
theorem IsTree.directory_container_of_locate (tree : ws.IsTree)
    (located : ws.locate path = .ok place) : ws.node? place.container = some .directory := by
  refine tree.directory_container ?_ located
  split
  · exact node?_of_isFixed ws (by rfl)
  · exact @directory_container_append ws [] (node?_of_isFixed ws (by rfl)) path.anchor

/-- **What is put into a directory keeps the tree**, if no directory was in its place. -/
theorem IsTree.put (tree : ws.IsTree) (free : ws.node? place ≠ some .directory)
    (inside : ws.node? place.container = some .directory) (node : Node) :
    (ws.put place node).IsTree := by
  have kept {other : Place} (h : ws.node? other = some .directory) :
      (ws.put place node).node? other = some .directory := by
    have apart : other ≠ place := by
      rintro rfl
      exact free h
    rwa [node?_put_of_ne apart]
  intro other there
  by_cases same : other = place
  · rw [same]
    exact kept inside
  · rw [node?_put_of_ne same] at there
    exact kept (tree other there)

/-- A tree stays one when a directory is made. -/
theorem IsTree.makeDirectory (tree : ws.IsTree) (h : ws.makeDirectory path = .ok made) :
    made.IsTree := by
  obtain ⟨place, located, ⟨there, rfl⟩ | ⟨missing, rfl⟩⟩ := makeDirectory_eq_ok_iff.1 h
  · exact tree
  · exact tree.put (by simp [missing]) (tree.directory_container_of_locate located) _

/-- A tree stays one when directories are made, also where an error ends it. -/
theorem IsTree.makeAll (tree : ws.IsTree) (anchor : String) (steps : List String) :
    (ws.makeAll anchor steps).1.IsTree := by
  induction steps with
  | nil => exact tree
  | cons last before ih =>
      unfold Workspace.makeAll
      dsimp only
      split
      · next found => exact tree.makeDirectory found
      · split
        · next failed =>
            rw [failed] at ih
            exact ih
        · next containing =>
            rw [containing] at ih
            split
            · next found => exact ih.makeDirectory found
            · exact ih
      · exact tree

/-- A tree stays one when directories are made, also where an error ends it. -/
theorem IsTree.makeDirectories (tree : ws.IsTree) (path : Path) :
    (ws.makeDirectories path).1.IsTree :=
  tree.makeAll path.anchor path.steps.reverse

/-- Where nothing was made, everything stands in a directory. -/
theorem isTree_empty : empty.IsTree := by
  intro place there
  have fixed : place.isFixed = true := by
    by_contra other
    exact there (if_neg other)
  exact node?_of_isFixed empty (isFixed_container fixed)

end Workspace

end Abacus
