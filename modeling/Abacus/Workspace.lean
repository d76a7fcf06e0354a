/-!
# Workspaces

The part of a file system that a run can see: the files and directories under the working directory
and those that its paths name. Paths are followed step by step through existing directories, so
`..` leads to the directory that contains the one before it.

## Main definitions

* `Path` — a path, read from text without its idle steps; `Path.text`, `Path.parent`.
* `Place` — where a path leads.
* `Workspace` — files and directories by place.
* `Workspace.read`, `write`, `makeDirectories` — access, which may fail with a `PathError`.

## Main statements

* `Workspace.node?_put_self`, `Workspace.node?_put_of_ne` — putting a node changes its place alone.

## Design notes

There are files and directories and nothing else: no links, and no files that are devices. Nor are
there permissions: every file can be read and replaced, and every directory takes new entries, up to
any number and with names of any length. So a path fails only for the reasons of `PathError`, while
a system may also refuse to open a file that is there.
-/

namespace Abacus

/-- A path: its anchor, empty for a relative path and slashes for an absolute one, and its
steps, none of them empty or the single dot. Steps of two dots are kept, since where they lead is
only known in a workspace. -/
structure Path where
  anchor : String
  steps : List String
  deriving DecidableEq, Repr

namespace Path

/-- The pieces of a text between slashes. -/
def splitSlashes : List Char → List (List Char)
  | [] => [[]]
  | c :: rest =>
    match splitSlashes rest with
    | [] => [[c]]
    | piece :: others => if c = '/' then [] :: piece :: others else (c :: piece) :: others

/-- The path of a text. Two leading slashes are an anchor of their own, any other number of them
counts as one. -/
def ofText (text : String) : Path where
  anchor :=
    match (text.toList.takeWhile (· == '/')).length with
    | 0 => ""
    | 2 => "//"
    | _ => "/"
  steps := ((splitSlashes text.toList).map String.ofList).filter fun step =>
    step != "" && step != "."

/-- The text of a path. -/
def text (path : Path) : String :=
  if path.anchor.isEmpty && path.steps.isEmpty then "."
  else path.anchor ++ "/".intercalate path.steps

/-- The path without its last step. A path without steps is its own parent. -/
def parent (path : Path) : Path := { path with steps := path.steps.dropLast }

end Path

/-- The place that a path leads to: the names from the working directory down. Places above it
start with a `..` for each level, and absolute ones with the anchor. -/
abbrev Place := List String

/-- The place of the directory that contains a place. The roots contain themselves, and every place
above the working directory is in the next. -/
def Place.container (place : Place) : Place :=
  match place with
  | ["/"] => ["/"]
  | ["//"] => ["//"]
  | _ => if place.all (· == "..") then place ++ [".."] else place.dropLast

/-- Whether a place is a directory in every workspace: the working directory, those above it, and
the root. -/
def Place.isFixed (place : Place) : Bool :=
  place.all (· == "..") || place == ["/"] || place == ["//"]

/-- What stands at a place: a file, of which nothing but its bytes is known, or a directory, whose
entries are the nodes at the places in it. -/
inductive Node where
  | file (content : List UInt8)
  | directory
  deriving DecidableEq, Repr

/-- Why a path cannot be used. These are all the reasons that a workspace can give; a system has
more of them. -/
inductive PathError where
  /-- There is nothing at the path. -/
  | notFound
  /-- A directory is where a file was expected. -/
  | isDirectory
  /-- A file is where a directory was to be made. -/
  | alreadyExists
  /-- A file stands on the way. -/
  | notDirectory
  deriving DecidableEq, Repr

/-- The files and directories that can be seen. The first node of a place counts. That a node stands
in a directory is not part of the type: access keeps it, by looking at the directory first. -/
structure Workspace where
  nodes : List (Place × Node)

namespace Workspace

/-- The workspace with nothing in the working directory. The directory itself is there, and so are
the roots. -/
def empty : Workspace := ⟨[]⟩

/-- What stands at a place. The working directory, those above it and the roots are directories in
every workspace. -/
def node? (ws : Workspace) (place : Place) : Option Node :=
  if place.isFixed then some .directory
  else (ws.nodes.find? fun entry => entry.1 == place).map Prod.snd

/-- The workspace with a node at a place, whatever stood there. Whether the place may be written is
judged before. -/
def put (ws : Workspace) (place : Place) (node : Node) : Workspace :=
  ⟨(place, node) :: ws.nodes.filter fun entry => entry.1 != place⟩

theorem node?_put_self {place : Place} (h : place.isFixed = false) (ws : Workspace)
    (node : Node) : (ws.put place node).node? place = some node := by
  simp [node?, put, h]

theorem node?_put_of_ne {place other : Place} (h : other ≠ place) (ws : Workspace)
    (node : Node) : (ws.put place node).node? other = ws.node? other := by
  have hfind : (ws.put place node).nodes.find? (fun entry => entry.1 == other) =
      ws.nodes.find? fun entry => entry.1 == other := by
    rw [put, List.find?_cons_of_neg (by simpa using h.symm), List.find?_filter]
    congr 1
    funext entry
    by_cases he : entry.1 = other <;> simp [he, h]
  simp only [node?, hfind]

/-- The place that steps lead to from a directory. Every step but the last has to end in a
directory. -/
def follow (ws : Workspace) (place : Place) : List String → Except PathError Place
  | [] => .ok place
  | step :: rest =>
    match ws.node? place with
    | some .directory =>
      ws.follow (if step = ".." then place.container else place ++ [step]) rest
    | some (.file _) => .error .notDirectory
    | none => .error .notFound

/-- The place that a path leads to; there may be nothing there. All directories on the way have to
be there, also those that a later `..` leaves again. -/
def locate (ws : Workspace) (path : Path) : Except PathError Place :=
  ws.follow (if path.anchor.isEmpty then [] else [path.anchor]) path.steps

/-- What a path leads to. Each step is followed in turn, so a path fails where a step on its way
does. -/
def find (ws : Workspace) (path : Path) : Except PathError Node := do
  match ws.node? (← ws.locate path) with
  | some node => return node
  | none => throw .notFound

/-- Whether a path leads to anything. -/
def contains (ws : Workspace) (path : Path) : Bool := (ws.find path).toBool

/-- Whether a path leads to a file. -/
def isFile (ws : Workspace) (path : Path) : Bool :=
  match ws.find path with
  | .ok (.file _) => true
  | _ => false

/-- The bytes of the file that a path leads to. A file that is there can always be read. -/
def read (ws : Workspace) (path : Path) : Except PathError (List UInt8) := do
  match ← ws.find path with
  | .file content => return content
  | .directory => throw .isDirectory

/-- The workspace after writing the file that a path leads to: a new one, or the one that is there
with all its bytes replaced. The directory that it stands in has to be there. -/
def write (ws : Workspace) (path : Path) (content : List UInt8) :
    Except PathError Workspace := do
  let place ← ws.locate path
  match ws.node? place with
  | some .directory => throw .isDirectory
  | _ => return ws.put place (.file content)

/-- The workspace after making one directory in an existing one; a directory that is there
already is kept. -/
def makeDirectory (ws : Workspace) (path : Path) : Except PathError Workspace := do
  let place ← ws.locate path
  match ws.node? place with
  | some .directory => return ws
  | some (.file _) => throw .alreadyExists
  | none => return ws.put place .directory

/-- The workspace after making the directory of some steps and all that lead to it, with the error
that stopped it, if any. The directories made before an error stay. The steps are last first. -/
def makeAll (ws : Workspace) (anchor : String) : List String → Workspace × Option PathError
  | [] => (ws, none)
  | last :: before =>
    let path : Path := ⟨anchor, (last :: before).reverse⟩
    match ws.makeDirectory path with
    | .ok made => (made, none)
    | .error .notFound =>
      -- The containing directory is missing: it is made first, and then this one is tried again.
      match ws.makeAll anchor before with
      | (made, some error) => (made, some error)
      | (made, none) =>
        match made.makeDirectory path with
        | .ok all => (all, none)
        | .error error => (made, some error)
    | .error error => (ws, some error)

/-- The workspace after making a directory and all that lead to it, with the error that stopped
it, if any. -/
def makeDirectories (ws : Workspace) (path : Path) : Workspace × Option PathError :=
  ws.makeAll path.anchor path.steps.reverse

end Workspace

end Abacus
