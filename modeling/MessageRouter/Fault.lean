import MessageRouter.Body.Scope
import MessageRouter.Comment
import MessageRouter.Diagnostic.Report
import MessageRouter.Document.Error
import MessageRouter.Json.Reader
/-!
# `Fault` — why a program cannot be compiled

* `Fault.Cause`: everything that can be wrong with a program, and its message.
* `Fault.Kind`: the seven kinds of causes, each with its code and its stage.
* `Fault`: a cause, and the place it is about if one is known.
-/
namespace MessageRouter

/-- What is wrong with a program. -/
inductive Fault.Cause where
  | json (cause : Json.ReadError)
  | document (cause : Document.Error) (pointer : Pointer)
  | unknownSelector (kind : String) (pointer : Pointer)
  | scope (cause : ScopeError)
  | comment (cause : Comment.Error)
  /-- Two receivers of a kind of which there may be one. -/
  | duplicateReceiver (contract kind : String) (first second : Nat)
  /-- Two receivers for one opcode. -/
  | duplicateOpcode (contract opcode message kind : String) (first second : Nat)
  | layout (cause : LayoutError)
  | documentSize (limit size : Nat)
  | outputSize (limit size : Nat)
  | noReceiver (contract : String) (index : Nat)

/-- The kinds of causes. -/
inductive Fault.Kind where
  | parse
  | typing
  | oversizedComment
  | invalidSelectorVariant
  | missingAllocation
  | budget
  | internal
  deriving DecidableEq, Repr

/-- A cause, and the place it is about if one is known. -/
structure Fault where
  cause : Fault.Cause
  loc : Option Location

namespace Fault

/-! ## Kinds -/

def Kind.name : Kind → String
  | .parse => "Parse"
  | .typing => "Typing"
  | .oversizedComment => "OversizedComment"
  | .invalidSelectorVariant => "InvalidSelectorVariant"
  | .missingAllocation => "MissingAllocation"
  | .budget => "Budget"
  | .internal => "Internal"

def Kind.code : Kind → String
  | .parse => "RECVC-PARSE"
  | .typing => "RECVC-TYPING"
  | .oversizedComment => "RECVC-OVERSIZED-COMMENT"
  | .invalidSelectorVariant => "RECVC-INVALID-SELECTOR"
  | .missingAllocation => "RECVC-MISSING-ALLOCATION"
  | .budget => "RECVC-BUDGET"
  | .internal => "RECVC-INTERNAL"

/-- The stage of the work at which causes of a kind are found. -/
def Kind.stage : Kind → Stage
  | .parse => .parse
  | .typing => .lower
  | .oversizedComment | .missingAllocation => .resolve
  | .invalidSelectorVariant => .route
  | .budget | .internal => .emit

def Cause.kind : Cause → Kind
  | .json _ | .document .. => .parse
  | .scope _ => .typing
  | .comment (.oversized ..) => .oversizedComment
  | .unknownSelector .. | .duplicateReceiver .. | .duplicateOpcode .. => .invalidSelectorVariant
  | .layout _ => .missingAllocation
  | .documentSize .. | .outputSize .. => .budget
  | .comment (.cell _) | .noReceiver .. => .internal

/-! ## Messages -/

/-- The indices of two receivers that clash. -/
def pairText (first second : Nat) : String :=
  "(#" ++ toString first ++ " and #" ++ toString second ++ ")"

/-- A limit, what it was exceeded by and the variable that sets it. -/
def sizeText (what limitName setting : String) (limit size : Nat) : String :=
  what ++ " too large: " ++ limitName ++ "=" ++ toString limit ++ " got " ++ toString size ++
    " (set " ++ setting ++ "=<bytes>)"

def Cause.message : Cause → String
  | .json cause => "unit: " ++ cause.message
  | .document cause pointer => cause.message ++ " at " ++ pointer.text
  | .unknownSelector kind pointer =>
    "unknown selector kind " ++ Text.quoted kind ++ " at " ++ pointer.text
  | .scope cause => cause.message
  | .comment cause => cause.message
  | .duplicateReceiver contract kind first second =>
    contract ++ ": duplicate " ++ kind ++ " receiver " ++ pairText first second
  | .duplicateOpcode contract opcode message kind first second =>
    contract ++ ": opcode " ++ opcode ++ " of " ++ message ++ " is handled twice by " ++ kind ++
      " receivers " ++ pairText first second
  | .layout cause => cause.message
  | .documentSize limit size =>
    sizeText "unit" "max_input_bytes" "RECVC_MAX_INPUT_BYTES" limit size
  | .outputSize limit size =>
    sizeText "FunC output" "max_output_bytes" "RECVC_MAX_OUTPUT_BYTES" limit size
  | .noReceiver contract index =>
    "internal error: " ++ contract ++ " has no receiver #" ++ toString index

def kind (f : Fault) : Kind := f.cause.kind

def message (f : Fault) : String := f.cause.message

/-- The message after the name of its kind. -/
def display (f : Fault) : String := f.kind.name ++ ": " ++ f.message

/-! ## Places -/

/-- A fault of which no place is known. -/
def ofCause (cause : Cause) : Fault := ⟨cause, none⟩

/-- A comment that is too long is placed where it stands, if that is known. -/
def ofComment (cause : Comment.Error) : Fault :=
  match cause with
  | .oversized _ (some span) => ⟨.comment cause, some (.text span none)⟩
  | cause => ofCause (.comment cause)

/-- The fault placed at a receiver, unless its place is known. -/
def atReceiver (contract : String) (index : Nat) (f : Fault) : Fault :=
  { f with loc := f.loc <|> some (.receiver contract index) }

/-- A fault as a diagnostic. -/
def toDiagnostic (f : Fault) : Diagnostic := .error f.kind.code f.kind.stage f.message f.loc

end Fault
end MessageRouter
