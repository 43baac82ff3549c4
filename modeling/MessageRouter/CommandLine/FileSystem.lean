import MessageRouter.CommandLine.FilePath
import MessageRouter.CommandLine.Response
/-!
# `CommandLine.FileSystem` — commands among files

* `FileSystem`: what a command needs of the files around it, as actions of some kind.
* `FileSystem.ensureAll`, `FileSystem.write`: writing a file after the directories that it needs.
* `Command.run`: a command reads its file, responds and writes what it has to write.
-/
namespace MessageRouter
namespace CommandLine

/-- What a command needs of the files around it. -/
structure FileSystem (m : Type → Type) where
  read : (path : String) → m (Except FileFault (List UInt8))
  /-- Makes a directory where the one above it is there; it may be there itself. -/
  ensureDirectory : (path : String) → m (Except FileFault Unit)
  writeFile : (path text : String) → m (Except FileFault Unit)

namespace FileSystem

variable {m : Type → Type} [Monad m]

/-- Makes the first of some directories, of which each lies in the next one. The ones above it are made only
if it cannot be made without them. -/
def ensureAll (fs : FileSystem m) : List String → m (Except FileFault Unit)
  | [] => return .ok ()
  | path :: above => do
    match ← fs.ensureDirectory path with
    | .error .notFound =>
      match ← fs.ensureAll above with
      | .ok _ => fs.ensureDirectory path
      | .error cause => return .error cause
    | result => return result

/-- Makes the directory of a file, if its path names one. -/
def ensureDirectoryOf (fs : FileSystem m) (path : String) : m (Except WriteFault Unit) := do
  match FilePath.directories path with
  | [] => return .ok ()
  | parent :: above => return (← fs.ensureAll (parent :: above)).mapError (.directory parent)

/-- Writes a file after the directories that it needs. -/
def write (fs : FileSystem m) (f : OutputFile) : m (Except WriteFault Unit) := do
  match ← fs.ensureDirectoryOf f.path with
  | .error cause => return .error cause
  | .ok _ => return (← fs.writeFile f.path f.text).mapError (.file f.path)

end FileSystem

namespace Command

variable {m : Type → Type} [Monad m]

/-- The bytes that a command reads; one that reads no file finds none. -/
def content (c : Command) (fs : FileSystem m) : m (Except FileFault (List UInt8)) :=
  match c.input? with
  | some path => fs.read path
  | none => return .error .notFound

/-- Reads the file of a command, lets it respond and writes what it has to write. -/
def run (c : Command) (s : Settings) (fs : FileSystem m) : m Response := do
  let r := c.respond s (← c.content fs)
  match r.file with
  | none => return r
  | some f => return r.afterWrite (← fs.write f)

end Command
end CommandLine
end MessageRouter
