import MessageRouter.CommandLine.FileSystem
import MessageRouter.Json.Reader
/-!
# `CommandLine.FileTree` — files as a value

* `FileTree`: directories and files by the steps that lead to them from a working directory. Steps upward
  come first; the directories above the working directory are always there.
* `FileTree.locate`: where a path leads.
* `FileTree.system`: a file system whose state is a tree.
-/
namespace MessageRouter
namespace CommandLine

/-- A directory or the text of a file. -/
inductive FileEntry where
  | directory
  | file (text : String)
  deriving DecidableEq, Repr

/-- Directories and files by the steps that lead to them. -/
structure FileTree where
  entries : List (List String × FileEntry)
  deriving DecidableEq, Repr

namespace FileTree

def empty : FileTree := ⟨[]⟩

/-! ## Entries -/

/-- The step to the directory above. -/
def up : String := ".."

/-- Whether steps lead to the working directory or to one above it. -/
def isAbove (steps : List String) : Bool := steps.all (· == up)

/-- What stands at the end of some steps. -/
def item? (t : FileTree) (steps : List String) : Option FileEntry :=
  if isAbove steps then some .directory else t.entries.lookup steps

/-- The tree with an entry set. -/
def set (t : FileTree) (steps : List String) (e : FileEntry) : FileTree :=
  ⟨t.entries.filter (·.1 ≠ steps) ++ [(steps, e)]⟩

/-! ## Paths -/

/-- The most bytes of a step. -/
def maxStepBytes : Nat := 255

/-- The most bytes of a path. -/
def maxPathBytes : Nat := 4095

/-- What stands in a directory under a name, if the name may stand there. -/
def child (t : FileTree) (here : List String) (name : String) : Except FileFault (Option FileEntry) :=
  if maxStepBytes < name.utf8ByteSize then .error .nameTooLong else .ok (t.item? (here ++ [name]))

/-- The directory above one. -/
def above (here : List String) : List String := if isAbove here then here ++ [up] else here.dropLast

/-- The directory after one more step. -/
def enter (t : FileTree) (here : List String) (step : String) : Except FileFault (List String) := do
  if step = up then return above here
  match ← t.child here step with
  | some .directory => return here ++ [step]
  | some (.file _) => throw .notDirectory
  | none => throw .notFound

/-- Where a path leads: a directory, and a name in it unless the path ends with a point or upward. -/
def locate (t : FileTree) (path : String) : Except FileFault (List String × Option String) := do
  if maxPathBytes < path.utf8ByteSize then throw .nameTooLong
  let steps := FilePath.steps path
  let here ← steps.dropLast.foldlM t.enter []
  match steps.getLast? with
  | none => return (here, none)
  | some step => if step = up then return (above here, none) else return (here, some step)

/-! ## Reading and writing -/

/-- The bytes of the file at a path. -/
def read (t : FileTree) (path : String) : Except FileFault (List UInt8) := do
  match ← t.locate path with
  | (_, none) => throw .isDirectory
  | (here, some name) =>
    match ← t.child here name with
    | none => throw .notFound
    | some .directory => throw .isDirectory
    | some (.file text) =>
      if FilePath.ending path = .step then return Json.bytesOf text else throw .notDirectory

/-- The tree with the directory at a path. -/
def ensureDirectory (t : FileTree) (path : String) : Except FileFault FileTree := do
  match ← t.locate path with
  | (_, none) => return t
  | (here, some name) =>
    match ← t.child here name with
    | none => return t.set (here ++ [name]) .directory
    | some .directory => return t
    | some (.file _) => throw .exists

/-- The tree with a file whose directory is there; what is not there cannot be followed by a point. -/
def writeFile (t : FileTree) (path text : String) : Except FileFault FileTree := do
  match ← t.locate path with
  | (_, none) => throw .isDirectory
  | (here, some name) =>
    match FilePath.ending path with
    | .slash => throw .isDirectory
    | .point =>
      let _ ← t.enter here name
      throw .isDirectory
    | .step =>
      match ← t.child here name with
      | some .directory => throw .isDirectory
      | _ => return t.set (here ++ [name]) (.file text)

/-- A change of the tree, which stays what it was if the change fails. -/
def change (f : FileTree → Except FileFault FileTree) : StateM FileTree (Except FileFault Unit) := fun t =>
  match f t with
  | .ok t => (.ok (), t)
  | .error cause => (.error cause, t)

/-- A file system whose state is a tree. -/
def system : FileSystem (StateM FileTree) where
  read path := fun t => (t.read path, t)
  ensureDirectory path := change (·.ensureDirectory path)
  writeFile path text := change (·.writeFile path text)

/-- The files in the working directory and below it. -/
def files (t : FileTree) : List (List String × String) :=
  t.entries.filterMap fun e =>
    match e.2 with
    | .file text => if e.1.head? = some up then none else some (e.1, text)
    | .directory => none

end FileTree
end CommandLine
end MessageRouter
