/-!
# `Cell.Fault` — why a cell cannot be written or read

The causes, their exit codes and their messages.
-/
namespace MessageRouter

/-- Why a cell cannot be written or read. -/
inductive Cell.Fault where
  /-- A cell would hold more than 1023 bits. -/
  | tooManyBits
  /-- A cell would hold more than four references. -/
  | tooManyRefs
  | unsignedRange (value width : Nat)
  | signedRange (value : Int) (width : Nat)
  | underflow (needed remaining : Nat)
  /-- An unsigned number of more than 128 bits. -/
  | unsignedTooWide (width : Nat)
  /-- A signed number of more than 128 bits. -/
  | signedTooWide (width : Nat)
  deriving DecidableEq, Repr

namespace Cell.Fault

/-- The exit code that a fault raises. -/
def code : Fault → Nat
  | tooManyBits | tooManyRefs => 8
  | unsignedRange .. | signedRange .. => 5
  | underflow .. => 9
  | unsignedTooWide _ | signedTooWide _ => 4

def message : Fault → String
  | tooManyBits => "cell overflow: more than 1023 bits"
  | tooManyRefs => "cell overflow: more than 4 refs"
  | unsignedRange value width =>
    "value " ++ toString value ++ " does not fit uint" ++ toString width
  | signedRange value width =>
    "value " ++ toString value ++ " does not fit int" ++ toString width
  | underflow needed remaining =>
    "cell underflow: need " ++ toString needed ++ " bits, " ++ toString remaining ++ " remaining"
  | unsignedTooWide width => "uint" ++ toString width ++ " value exceeds 128 bits"
  | signedTooWide width => "int" ++ toString width ++ " value exceeds 128 bits"

/-- The message with its exit code. -/
def display (f : Fault) : String := "exit code " ++ toString f.code ++ ": " ++ f.message

end Cell.Fault
end MessageRouter
