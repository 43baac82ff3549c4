import MessageRouter.CommandLine.FileSystem
/-!
# `Main` — the command line

Runs a command among the files around the program and prints its response.
-/
namespace MessageRouter
namespace CommandLine

/-- The fault of a failing action, whose number may be given as a negative one. -/
def FileFault.ofError : IO.Error → FileFault
  | .noFileOrDirectory .. => .notFound
  | .alreadyExists .. => .exists
  | .inappropriateType _ code details | .invalidArgument _ code details =>
    let code := if 2 ^ 31 ≤ code.toNat then 0 - code else code
    if code = 20 then .notDirectory
    else if code = 21 then .isDirectory
    else if code = 36 then .nameTooLong
    else .other (details ++ " (os error " ++ toString code ++ ")")
  | e => .other (toString e)

/-- The answer of an action, or the fault it fails with. -/
def attempt (action : IO α) : IO (Except FileFault α) := do
  try return .ok (← action)
  catch e => return .error (FileFault.ofError e)

/-- Makes a directory. Where something of its name is there, that has to be a directory. -/
def makeDirectory (path : String) : IO Unit := do
  try IO.FS.createDir path
  catch e => if FileFault.ofError e = .exists then IO.FS.createDirAll path else throw e

/-- The files around the program. -/
def system : FileSystem IO where
  read path := attempt do return (← IO.FS.readBinFile path).data.toList
  ensureDirectory path := attempt (makeDirectory path)
  writeFile path text := attempt (IO.FS.writeFile path text)

/-- Prints a response. -/
def print (r : Response) : IO UInt32 := do
  IO.print r.stdout
  IO.eprint r.stderr
  return UInt32.ofNat r.exit

end CommandLine
end MessageRouter

open MessageRouter CommandLine in
def main (args : List String) : IO UInt32 := do
  match Command.ofArguments? args with
  | none => print .usage
  | some c =>
    let settings : Settings :=
      ⟨← IO.getEnv Settings.maxInputVariable, ← IO.getEnv Settings.maxOutputVariable⟩
    print (← c.run settings system)
