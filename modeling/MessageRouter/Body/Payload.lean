import MessageRouter.Schema.Message
/-!
# `Body.Payload` — what a receiver gets besides the state

* `Payload`: nothing, a struct of fields, or the rest of the message.
* `Payload.binding?`: the name a body has for it.
-/
namespace MessageRouter

/-- What a receiver gets besides the state. -/
inductive Payload where
  | none
  /-- The fields of a message, whole or as a bounce keeps them; `dropped` names those it does not keep. -/
  | struct (binding message : String) (fields : List Field) (isPartial : Bool) (dropped : List String)
  /-- The rest of the message, of which a body can take the length. -/
  | slice (binding : String)
  deriving DecidableEq, Repr

namespace Payload

/-- The name that a body has for its payload. -/
def binding? : Payload → Option String
  | none => Option.none
  | struct binding .. | slice binding => some binding

/-- The struct of a message under a name. -/
def ofLayout (binding : String) (l : Layout) (isPartial : Bool) : Payload :=
  let fields := l.fields isPartial
  struct binding l.message.name fields isPartial
    ((l.message.fields.drop fields.length).map (·.name))

end Payload
end MessageRouter
