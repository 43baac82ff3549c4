import MessageRouter.Contract.Procedure
import MessageRouter.Func.Stmt
/-!
# `Func.Function` — the generated function of a receiver

* `Function`: a function that takes the state and a payload and gives the state back.
* `Function.ofProcedure`: the function of a procedure: the state and a struct payload are taken apart, then
  comes the body, then the return that the body may have left out.
* `Function.write`: its lines.
-/
namespace MessageRouter
namespace Func

/-- A parameter and its type. -/
structure Parameter where
  type : String
  name : String
  deriving DecidableEq, Repr

/-- A function that takes the state and a payload and gives the state back. -/
structure Function where
  remark : String
  name : String
  state : Parameter
  payload : Option Parameter
  body : List Stmt

namespace Function

/-! ## Parts -/

/-- What messages the function of a selector is for. -/
def remarkOf : Selector → String
  | .message _ message _ => "Receive " ++ message ++ " message"
  | .empty _ => "Receive empty message"
  | .comment _ text => "Receive " ++ Text.quoted text ++ " message"
  | .anyComment .. => "Receive any text message"
  | .any .. => "Receive any message"
  | .bounced message .. => "Bounced handler for " ++ message ++ " message"
  | .anyBounced _ => "Bounced handler for any message"

/-- The parameter of the state. -/
def stateParameter (fields : List Field) : Parameter := ⟨stackType fields, Name.var Place.self⟩

/-- The parameter of a payload. -/
def payloadParameter : Payload → Option Parameter
  | .none => none
  | .struct binding _ fields _ _ => some ⟨stackType fields, Name.var binding⟩
  | .slice binding => some ⟨"slice", Name.var binding⟩

/-- Takes the fields under a binding apart, if there are any. -/
def unpackFields (binding : String) (fields : List Field) : List Stmt :=
  if fields.isEmpty then [] else [.unpack (fieldVariables binding fields) (Name.var binding)]

/-- Takes a struct apart. -/
def unpackPayload : Payload → List Stmt
  | .struct binding _ fields _ _ => unpackFields binding fields
  | .none | .slice _ => []

/-- The function of a procedure. -/
def ofProcedure (p : Procedure) : Function where
  remark := remarkOf p.selector
  name := p.function
  state := stateParameter p.stateFields
  payload := payloadParameter p.payload
  body :=
    unpackFields Place.self p.stateFields ++ unpackPayload p.payload ++
      lowerBody (Scope.ofReceiver p.stateFields p.payload) p.body ++
      if p.implicitReturn then [.ret (fieldVariables Place.self p.stateFields)] else []

/-! ## Lines -/

def parameters (f : Function) : List String :=
  (f.state :: f.payload.toList).map fun p => p.type ++ " " ++ p.name

/-- The line that opens the function. -/
def header (f : Function) : String :=
  "(" ++ f.state.type ++ ", ()) " ++ f.name ++ tuple f.parameters ++ " impure inline"

/-- A remark, if remarks are wanted. -/
def writeRemark (emitComments : Bool) (remark : String) (w : Writer) : Writer :=
  if emitComments then w.line (";; " ++ remark) else w

/-- The lines of a function. -/
def write (emitComments : Bool) (f : Function) : Writing ScopeError Unit := do
  Writing.emit (writeRemark emitComments f.remark)
  Writing.block f.header (writeStmts f.body)

end Function
end Func
end MessageRouter
