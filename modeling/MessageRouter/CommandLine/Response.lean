import MessageRouter.CommandLine.Command
import MessageRouter.Compilation
import MessageRouter.Document.Reader
import MessageRouter.Simulator.Basic
/-!
# `CommandLine.Response` — what commands answer

* `FileFault`: why a file cannot be read or written.
* `Response`: the exit status, what is printed, and the file to write before anything is printed.
* `Settings`: the settings of the surroundings.
* `Command.respond`: the response of a command to the bytes of the file it reads.
-/
namespace MessageRouter
namespace CommandLine

/-! ## Files -/

/-- Why a file cannot be read or written. -/
inductive FileFault where
  | notFound
  | exists
  | notDirectory
  | isDirectory
  | nameTooLong
  | other (text : String)
  deriving DecidableEq, Repr

def FileFault.message : FileFault → String
  | .notFound => "No such file or directory (os error 2)"
  | .exists => "File exists (os error 17)"
  | .notDirectory => "Not a directory (os error 20)"
  | .isDirectory => "Is a directory (os error 21)"
  | .nameTooLong => "File name too long (os error 36)"
  | .other text => text

/-- At which step a file could not be written. -/
inductive WriteFault where
  | directory (path : String) (cause : FileFault)
  | file (path : String) (cause : FileFault)
  deriving DecidableEq, Repr

def WriteFault.message : WriteFault → String
  | .directory path cause => "create output dir: " ++ path ++ ": " ++ cause.message
  | .file path cause => "write: " ++ path ++ ": " ++ cause.message

/-! ## Responses -/

/-- A file to be written. -/
structure OutputFile where
  path : String
  text : String
  deriving DecidableEq, Repr

/-- The exit status, what is printed, and the file to write before anything is printed. -/
structure Response where
  exit : Nat
  stdout : String
  stderr : String
  file : Option OutputFile
  deriving DecidableEq, Repr

namespace Response

/-- Text on the standard output. -/
def print (text : String) : Response := ⟨0, text, "", none⟩

/-- One line on the standard output. -/
def line (text : String) : Response := print (text ++ "\n")

/-- One line on the error output. -/
def failure (message : String) : Response := ⟨2, "", message ++ "\n", none⟩

/-- What is answered to arguments that make no command. -/
def usage : Response :=
  failure "usage: recvc lang-id | compile | plan | comment-opcode | dispatch [options]"

/-- The response after its file was written or could not be. -/
def afterWrite (r : Response) : Except WriteFault Unit → Response
  | .ok _ => r
  | .error cause => failure cause.message

end Response

/-! ## Documents -/

def langId : String := "recvc-func@0.1.0"

def planSchema : String := "recvc.plan@0.1.0"

def dispatchSchema : String := "recvc.dispatch@0.1.0"

def reportSchema : String := "recvc.report@0.1.0"

/-- The document of some plans. -/
def planDocument (plans : List Plan) : Json :=
  .object [("schema_version", .string planSchema), ("plans", .array (plans.map Plan.toJson))]

/-- The document of a message that was delivered, or of its early end. -/
def dispatchDocument : Except Simulator.Exit Simulator.Outcome → Json
  | .ok o =>
    .ofMembers [("schema_version", .string dispatchSchema), ("handled", .bool o.handled),
      ("receiver", Json.ofOption .nat o.receiver), ("state", o.state.toJson)]
  | .error e =>
    .ofMembers [("schema_version", .string dispatchSchema), ("exit_code", .nat e.code),
      ("message", .string e.message)]

def statsDocument (s : Stats) : Json :=
  .ofMembers [("contracts", .nat s.contracts), ("routers", .nat s.routers),
    ("receivers", .nat s.receivers), ("output_bytes", .nat s.outputBytes)]

/-- The exit status of a compilation that is reported. -/
def reportExit (r : Report) : Nat := if r.ok then 0 else 1

/-- The report on a compilation. -/
def compileReport (compiled : Except Fault Compiled) : Report :=
  match compiled with
  | .ok _ => Report.ofDiagnostics [] []
  | .error cause => Report.ofDiagnostics [cause.toDiagnostic] []

/-- The document of the report on a compilation, without the members that are empty. -/
def reportDocument (input : String) (compiled : Except Fault Compiled) : Json :=
  let r := compileReport compiled
  .object ([("schema_version", .string reportSchema), ("command", .string "compile"),
      ("ok", .bool r.ok), ("in", .string input),
      ("diagnostics_count", .nat r.diagnostics.length)] ++
    (if r.diagnostics.isEmpty then []
      else [("diagnostics", .array (r.diagnostics.map Diagnostic.toJson))]) ++
    (match compiled with
    | .ok c => [("stats", statsDocument c.stats)]
    | .error _ => []) ++
    [("exit_code", .nat (reportExit r))])

/-! ## Settings -/

/-- The settings of the surroundings: how large documents and outputs may be. -/
structure Settings where
  maxInputBytes : Option String
  maxOutputBytes : Option String
  deriving DecidableEq, Repr

namespace Settings

/-- The variables that hold the settings. -/
def maxInputVariable : String := "RECVC_MAX_INPUT_BYTES"

def maxOutputVariable : String := "RECVC_MAX_OUTPUT_BYTES"

def limits (s : Settings) : Limits := .ofSettings s.maxInputBytes s.maxOutputBytes

/-- The settings with the limit of an option, if it was given. -/
def withMaxOutput (s : Settings) : Option Nat → Settings
  | some n => { s with maxOutputBytes := some (toString n) }
  | none => s

end Settings

/-! ## Commands -/

/-- A response, or the message of a failure. -/
abbrev Answer := Except String Response

def compileFailed (cause : Fault) : String := "compile failed: " ++ cause.display

/-- The bytes of the file that a command reads. -/
def inputBytes (path : String) (content : Except FileFault (List UInt8)) :
    Except String (List UInt8) :=
  content.mapError fun cause => "read unit: " ++ path ++ ": " ++ cause.message

namespace CompileCommand

def options (c : CompileCommand) : Options where
  emitComments := !c.noComments
  directions := if c.directions.isEmpty then Direction.all else c.directions

/-- The generated text of a document. -/
def compiled (c : CompileCommand) (s : Settings) (bytes : List UInt8) : Except Fault Compiled := do
  let limits := (s.withMaxOutput c.maxOutputBytes).limits
  let p ← Program.ofBytes limits.document bytes
  p.compile limits.output c.options

/-- The file for the generated text, if there is text and a path for it. -/
def file (c : CompileCommand) (compiled : Except Fault Compiled) : Option OutputFile :=
  match compiled, c.out with
  | .ok compiled, some path => some ⟨path, compiled.text⟩
  | _, _ => none

def respond (c : CompileCommand) (s : Settings) (content : Except FileFault (List UInt8)) : Answer := do
  let compiled := c.compiled s (← inputBytes c.input content)
  if c.reportJson then
    let text := (reportDocument c.input compiled).compact ++ "\n"
    return ⟨reportExit (compileReport compiled), text, "", c.file compiled⟩
  else
    let text ← compiled.mapError compileFailed
    match c.file compiled with
    | some file => return ⟨0, "", "", some file⟩
    | none => return .print text.text

end CompileCommand

namespace PlanCommand

/-- Whether a command asks for a contract. -/
def wants (c : PlanCommand) (contract : Contract) : Bool :=
  match c.contract with
  | some name => name == contract.name
  | none => true

/-- The plans that a command asks for. -/
def plans (c : PlanCommand) (p : Program) : Except Fault (List Plan) := do
  let plans ← (p.contracts.filter c.wants).mapM fun contract => contract.plans p.registry fun _ => true
  return plans.flatten

def respond (c : PlanCommand) (s : Settings) (content : Except FileFault (List UInt8)) : Answer := do
  let bytes ← inputBytes c.input content
  let p ← (Program.ofBytes s.limits.document bytes).mapError compileFailed
  let plans ← (c.plans p).mapError compileFailed
  match c.contract, plans with
  | some name, [] => throw ("unknown contract " ++ Text.quoted name)
  | _, _ => return .line (planDocument plans).compact

end PlanCommand

namespace DispatchCommand

/-- The state before the message, zeroed unless it is given. -/
def initialState (c : DispatchCommand) (fields : List Field) : Except String Record := do
  let v ← match c.state with
    | none => pure Json.null
    | some text =>
      (Json.read (Json.bytesOf text)).mapError fun e => "parse --state JSON: " ++ e.message
  (Record.ofJson fields v).mapError Record.ReadError.message

/-- The cell of the message. -/
def body (c : DispatchCommand) : Except String Cell := do
  let bytes ← (Text.readHex c.bodyHex).mapError Text.HexError.message
  (Cell.ofBytes bytes).mapError fun e => "message body does not fit one cell: " ++ e.display

def respond (c : DispatchCommand) (s : Settings) (content : Except FileFault (List UInt8)) :
    Answer := do
  let bytes ← inputBytes c.input content
  let p ← (Program.ofBytes s.limits.document bytes).mapError compileFailed
  match p.contract? c.contract with
  | none => throw ("unknown contract " ++ Text.quoted c.contract)
  | some contract =>
    let state ← c.initialState contract.fields
    let body ← c.body
    let sim ← (Simulator.ofContract contract p.registry).mapError compileFailed
    let outcome := sim.deliver c.direction state body c.bounced
    return .line (dispatchDocument outcome).compact

end DispatchCommand

/-- The tag of a comment, as generated code compares it. -/
def respondComment (text : String) : Answer := do
  let tag ← (Comment.tag text none).mapError fun e => compileFailed (.ofComment e)
  return .line ("0x" ++ tag)

/-- The response of a command to the bytes of the file it reads; a command that reads none gets none. -/
def Command.respond (c : Command) (s : Settings) (content : Except FileFault (List UInt8)) : Response :=
  let answer : Answer :=
    match c with
    | .langId => .ok (.line CommandLine.langId)
    | .commentOpcode text => respondComment text
    | .compile c => c.respond s content
    | .plan c => c.respond s content
    | .dispatch c => c.respond s content
  match answer with
  | .ok r => r
  | .error message => .failure message

end CommandLine
end MessageRouter
