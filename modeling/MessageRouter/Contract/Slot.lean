import MessageRouter.Contract.Basic
import MessageRouter.Fault
/-!
# `Contract.Slot` — what receivers take for themselves

* `Slot`: what a receiver takes among the messages of its direction. An opcode may be taken once by a
  receiver and once by a receiver of bounces; receivers of comments take nothing.
* `Selector.slot`: the slot of a selector; the message it names must have a layout.
* `Contract.checkSlots`: whether no two receivers of a direction take one slot, with the first offence.
-/
namespace MessageRouter

/-- What a receiver takes among the messages of its direction. -/
inductive Slot where
  | empty
  | anyComment
  | any
  | anyBounced
  | opcode (isBounce : Bool) (value : UInt32)
  deriving DecidableEq, Repr

/-- The slot of a selector, if it takes one. -/
def Selector.slot (registry : Registry) : Selector → Except LayoutError (Option Slot)
  | .empty _ => .ok (some .empty)
  | .anyComment .. => .ok (some .anyComment)
  | .any .. => .ok (some .any)
  | .anyBounced _ => .ok (some .anyBounced)
  | .message _ name _ => (registry.layout name).map fun l => some (.opcode false l.header.value)
  | .bounced name .. => (registry.layout name).map fun l => some (.opcode true l.header.value)
  | .comment .. => .ok none

/-- Two receivers, at `first` and `second`, that take the slot of `s`. -/
def Fault.Cause.clash (registry : Registry) (contract : String) (s : Selector) (first second : Nat) :
    Fault.Cause :=
  match s.message? with
  | some name =>
    let opcode := ((registry.find? name).bind (·.header)).map Header.opcode
    .duplicateOpcode contract (opcode.getD "") name s.kindName first second
  | none => .duplicateReceiver contract s.kindName first second

namespace Contract

/-- Checks receivers after those that took the slots `taken`. -/
def checkSlotsFrom (c : Contract) (registry : Registry) (taken : List (Slot × Nat)) :
    List (Receiver × Nat) → Except Fault Unit
  | [] => .ok ()
  | (r, i) :: rest =>
    match r.selector.slot registry with
    | .error cause => .error ((Fault.ofCause (.layout cause)).atReceiver c.name i)
    | .ok none => checkSlotsFrom c registry taken rest
    | .ok (some slot) =>
      match taken.lookup slot with
      | some first =>
        .error ((Fault.ofCause (.clash registry c.name r.selector first i)).atReceiver c.name i)
      | none => checkSlotsFrom c registry ((slot, i) :: taken) rest

/-- Whether no two receivers of a direction take one slot. -/
def checkSlots (c : Contract) (registry : Registry) (d : Direction) : Except Fault Unit :=
  c.checkSlotsFrom registry [] (c.receiversFor d)

end Contract
end MessageRouter
