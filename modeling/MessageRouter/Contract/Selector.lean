import MessageRouter.Direction
/-!
# `Contract.Selector` — which messages a receiver is for

* `Selector`: messages of a type, the empty message, a comment, any comment, any message, and the same for
  bounced messages.
* `Selector.direction`: where its messages come from; bounced ones always come from another contract.
* `Selector.kindName`: the word for its kind.
-/
namespace MessageRouter

/-- Which messages a receiver is for, and the name it has for what it gets. -/
inductive Selector where
  | message (d : Direction) (message binding : String)
  | empty (d : Direction)
  | comment (d : Direction) (text : String)
  | anyComment (d : Direction) (binding : String)
  | any (d : Direction) (binding : String)
  /-- A bounced message, of which the receiver may ask for the part that is sure to be there. -/
  | bounced (message binding : String) (isPartial : Bool)
  | anyBounced (binding : String)
  deriving DecidableEq, Repr

namespace Selector

/-- Where the messages of a selector come from. -/
def direction : Selector → Direction
  | message d .. | empty d | comment d _ | anyComment d _ | any d _ => d
  | bounced .. | anyBounced _ => .internal

def isBounce : Selector → Bool
  | bounced .. | anyBounced _ => true
  | _ => false

/-- Bounced messages come from another contract. -/
theorem direction_of_isBounce {s : Selector} (h : s.isBounce = true) : s.direction = .internal := by
  cases s <;> simp_all [isBounce, direction]

/-- The word for the kind of a selector. -/
def kindName : Selector → String
  | message d .. => d.name ++ "-binary"
  | empty d => d.name ++ "-empty"
  | comment d _ => d.name ++ "-comment"
  | anyComment d _ => d.name ++ "-comment-fallback"
  | any d _ => d.name ++ "-fallback"
  | bounced .. => "bounce-binary"
  | anyBounced _ => "bounce-fallback"

/-- The message type that a selector names. -/
def message? : Selector → Option String
  | message _ name _ | bounced name .. => some name
  | _ => none

end Selector
end MessageRouter
