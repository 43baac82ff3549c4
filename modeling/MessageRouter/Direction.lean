/-!
# `Direction` — where a message comes from

* `Direction`: from another contract or from outside the network.
* `Direction.all`: both, in the order in which routers are built.
-/
namespace MessageRouter

/-- Where a message comes from. -/
inductive Direction where
  /-- From another contract. -/
  | internal
  /-- From outside the network. -/
  | external
  deriving DecidableEq, Repr

namespace Direction

/-- Both directions, in the order in which routers are built. -/
def all : List Direction := [internal, external]

theorem mem_all (d : Direction) : d ∈ all := by cases d <;> decide

/-- The word for a direction. -/
def name : Direction → String
  | internal => "internal"
  | external => "external"

/-- The direction of a word. -/
def ofName? (s : String) : Option Direction := all.find? fun d => d.name == s

end Direction
end MessageRouter
