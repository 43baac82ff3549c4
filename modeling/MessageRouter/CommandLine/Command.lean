import MessageRouter.CommandLine.Arguments
import MessageRouter.Direction
import MessageRouter.Text.Numeral
/-!
# `CommandLine.Command` — what the command line asks for

* `Command`: the five commands with their options.
* `Command.ofArguments?`: the command of some arguments, if they make one.
-/
namespace MessageRouter
namespace CommandLine

/-- Generates the text of a program. -/
structure CompileCommand where
  input : String
  out : Option String
  /-- Both directions if there is none. -/
  directions : List Direction
  noComments : Bool
  maxOutputBytes : Option Nat
  reportJson : Bool
  deriving DecidableEq, Repr

/-- Prints the plans of a program or of one of its contracts. -/
structure PlanCommand where
  input : String
  contract : Option String
  deriving DecidableEq, Repr

/-- Delivers one message to a contract. -/
structure DispatchCommand where
  input : String
  contract : String
  direction : Direction
  bodyHex : String
  bounced : Bool
  state : Option String
  deriving DecidableEq, Repr

/-- What the command line asks for. -/
inductive Command where
  /-- Prints the name and version of the generated language. -/
  | langId
  | compile (c : CompileCommand)
  | plan (c : PlanCommand)
  /-- Prints the tag of a comment. -/
  | commentOpcode (text : String)
  | dispatch (c : DispatchCommand)
  deriving DecidableEq, Repr

namespace Command

/-! ## Values of options -/

/-- A path, which cannot be empty. -/
def path? (s : String) : Option String := if s.isEmpty then none else some s

/-- An option that may be left out, and whose value has to be readable otherwise. -/
def optional (read : String → Option α) : Option String → Option (Option α)
  | none => some none
  | some s => (read s).map some

/-- A number of 64 bits. -/
def size? (s : String) : Option Nat := (Text.readNat 10 (2 ^ 64 - 1) s.toList).toOption

/-! ## Commands -/

def compileOptions : List OptionSpec :=
  [.single "input", .single "out", .many "direction", .flag "no-comments", .single "max-output-bytes",
    .flag "report-json"]

def compileOf? (args : List String) : Option CompileCommand := do
  let a ← Arguments.read compileOptions 0 args
  return {
    input := ← (a.value? "input").bind path?
    out := ← optional path? (a.value? "out")
    directions := ← (a.values "direction").mapM Direction.ofName?
    noComments := a.has "no-comments"
    maxOutputBytes := ← optional size? (a.value? "max-output-bytes")
    reportJson := a.has "report-json" }

def planOptions : List OptionSpec := [.single "input", .single "contract"]

def planOf? (args : List String) : Option PlanCommand := do
  let a ← Arguments.read planOptions 0 args
  return { input := ← (a.value? "input").bind path?, contract := a.value? "contract" }

def dispatchOptions : List OptionSpec :=
  [.single "input", .single "contract", .single "direction", .single "body-hex", .flag "bounced",
    .single "state"]

def dispatchOf? (args : List String) : Option DispatchCommand := do
  let a ← Arguments.read dispatchOptions 0 args
  return {
    input := ← (a.value? "input").bind path?
    contract := ← a.value? "contract"
    direction := (← optional Direction.ofName? (a.value? "direction")).getD .internal
    bodyHex := (a.value? "body-hex").getD ""
    bounced := a.has "bounced"
    state := a.value? "state" }

/-- The command of some arguments, if they make one. -/
def ofArguments? : List String → Option Command
  | "lang-id" :: args => (Arguments.read [] 0 args).map fun _ => langId
  | "compile" :: args => (compileOf? args).map compile
  | "plan" :: args => (planOf? args).map plan
  | "comment-opcode" :: args => ((Arguments.read [] 1 args).bind (·.words.head?)).map commentOpcode
  | "dispatch" :: args => (dispatchOf? args).map dispatch
  | _ => none

/-- The file that a command reads. -/
def input? : Command → Option String
  | langId | commentOpcode _ => none
  | compile c => some c.input
  | plan c => some c.input
  | dispatch c => some c.input

end Command
end CommandLine
end MessageRouter
