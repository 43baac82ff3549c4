import MessageRouter.Body.Operand
import MessageRouter.Schema.Codec
/-!
# `Simulator.Exit` — how a simulated message can end early

* `Exit`: the causes.
* `Exit.code`, `Exit.message`: the exit code and the words for it.
-/
namespace MessageRouter
namespace Simulator

/-- How a simulated message can end early. -/
inductive Exit where
  | codec (cause : Codec.Fault)
  /-- By a throw in the body of a receiver. -/
  | thrown (code : UInt16)
  | overflow
  | noLayout (receiver : Nat)
  | unknownHandler (function : String)
  | storedKind (field : Field) (kind : Value.Kind)
  | storedNowhere (field : String)
  | noTarget (p : Place)
  | noStateField (p : Place)
  | noMessageField (p : Place)
  | unreadable (p : Place)
  | unknownName (p : Place)
  | measuredKind (p : Place) (kind : Value.Kind)
  | complementKind (kind : Value.Kind)
  | negatedKind (kind : Value.Kind)
  | operatorKinds (op : BinaryOp) (a b : Value.Kind)
  | sliceCondition
  deriving DecidableEq, Repr

namespace Exit

/-- The exit code for values of a wrong kind. -/
def typeCheck : Nat := 7

def code : Exit → Nat
  | codec cause => cause.code
  | thrown code => code.toNat
  | overflow => 4
  | noLayout _ => 129
  | unknownHandler _ | storedKind .. | storedNowhere _ | noTarget _ | noStateField _
  | noMessageField _ | unreadable _ | unknownName _ | measuredKind .. | complementKind _
  | negatedKind _ | operatorKinds .. | sliceCondition => typeCheck

def message : Exit → String
  | codec cause => cause.message
  | thrown code => "throw(" ++ toString code.toNat ++ ")"
  | overflow => "integer overflow"
  | noLayout receiver => "no message layout for receiver #" ++ toString receiver
  | unknownHandler function => "unknown handler " ++ function
  | storedKind f kind =>
    "cannot store a " ++ kind.name ++ " in state field " ++ Text.quoted f.name ++ " of type " ++
      f.type.name
  | storedNowhere field => "no state field " ++ Text.quoted field
  | noTarget p => "cannot assign to " ++ p.display
  | noStateField p => "no state field " ++ p.display
  | noMessageField p => "no message field " ++ p.display
  | unreadable p => "cannot read " ++ p.display
  | unknownName p => "unknown name " ++ p.display
  | measuredKind p kind => p.display ++ " is a " ++ kind.name
  | complementKind kind => "cannot negate a " ++ kind.name
  | negatedKind kind => "expected an int, got " ++ kind.name
  | operatorKinds op a b =>
    "operator " ++ op.sign ++ " does not apply to " ++ a.name ++ " and " ++ b.name
  | sliceCondition => "a slice is not a condition"

/-- The message with its exit code. -/
def display (e : Exit) : String := "exit code " ++ toString e.code ++ ": " ++ e.message

end Exit
end Simulator
end MessageRouter
