import MessageRouter.Contract.Basic
import MessageRouter.Fault
import MessageRouter.Func.Name
/-!
# `Contract.Procedure` — the function of a receiver

* `Procedure`: a receiver as a function, which takes the state by value and gives it back.
* `Contract.functionName`: its name; that of a comment's receiver holds the tag of the comment.
* `Contract.procedure`: the procedure of a receiver whose body fits its payload.
-/
namespace MessageRouter

/-- A receiver as a function. -/
structure Procedure where
  contract : String
  /-- Where the receiver stands in its contract. -/
  index : Nat
  selector : Selector
  function : String
  stateFields : List Field
  payload : Payload
  body : List Stmt
  /-- The body does not close with a return, so that one is added. -/
  implicitReturn : Bool

namespace Contract

open Func in
/-- The name of a receiver's function. -/
def functionName (c : Contract) (r : Receiver) : Except Fault String :=
  match r.selector with
  | .message d message _ => .ok (Name.receiveMessage c.name d message)
  | .empty d => .ok (Name.receiveEmpty c.name d)
  | .comment d text =>
    match Comment.tag text r.loc with
    | .ok hash => .ok (Name.receiveComment c.name d hash)
    | .error cause => .error (.ofComment cause)
  | .anyComment d _ => .ok (Name.receiveAnyComment c.name d)
  | .any d _ => .ok (Name.receiveAny c.name d)
  | .bounced message .. => .ok (Name.receiveBounced c.name message)
  | .anyBounced _ => .ok (Name.receiveAnyBounced c.name)

/-- What a selector's receiver gets besides the state. -/
def payload (registry : Registry) (s : Selector) : Except Fault Payload :=
  let ofLayout (binding name : String) (isPartial : Bool) : Except Fault Payload :=
    match registry.layout name with
    | .ok l => .ok (.ofLayout binding l isPartial)
    | .error cause => .error (.ofCause (.layout cause))
  match s with
  | .message _ name binding => ofLayout binding name false
  | .bounced name binding isPartial => ofLayout binding name isPartial
  | .empty _ | .comment .. => .ok .none
  | .anyComment _ binding | .any _ binding | .anyBounced binding => .ok (.slice binding)

/-- Whether a body fits its receiver. -/
def checkReceiver (c : Contract) (payload : Payload) (body : List Stmt) : Except Fault Unit :=
  match (checkBody body).run (Scope.ofReceiver c.fields payload) with
  | .ok _ _ => .ok ()
  | .error cause _ => .error (.ofCause (.scope cause))

/-- The procedure of the receiver at an index. -/
def procedure (c : Contract) (registry : Registry) (index : Nat) : Except Fault Procedure :=
  match c.receivers[index]? with
  | none => .error (.ofCause (.noReceiver c.name index))
  | some r => do
    let function ← c.functionName r
    let payload ← payload registry r.selector
    c.checkReceiver payload r.body
    return ⟨c.name, index, r.selector, function, c.fields, payload, r.body, !endsInReturn r.body⟩

end Contract
end MessageRouter
