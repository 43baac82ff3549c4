import MessageRouter.Body.Stmt
import MessageRouter.Contract.Selector
import MessageRouter.Diagnostic.Span
import MessageRouter.Schema.Message
/-!
# `Contract.Basic` — contracts and programs

* `Receiver`: a selector, a body and where it was declared.
* `Contract`: state fields, and receivers in the order of their declaration.
* `Contract.receiversFor`: the receivers of one direction with their indices.
* `Program`: messages and contracts.
-/
namespace MessageRouter

/-- What a contract does with the messages of a selector. -/
structure Receiver where
  selector : Selector
  body : List Stmt
  loc : Option Span

/-- A contract. -/
structure Contract where
  name : String
  fields : List Field
  receivers : List Receiver

namespace Contract

/-- The receivers of one direction with their indices, in the order of their declaration. -/
def receiversFor (c : Contract) (d : Direction) : List (Receiver × Nat) :=
  c.receivers.zipIdx.filter fun r => r.1.selector.direction == d

/-- Whether a contract receives messages of a direction. -/
def receives (c : Contract) (d : Direction) : Bool :=
  c.receivers.any fun r => r.selector.direction == d

/-- A receiver of a direction stands at its index. -/
theorem getElem?_of_mem_receiversFor {c : Contract} {d : Direction} {r : Receiver} {i : Nat}
    (h : (r, i) ∈ c.receiversFor d) : c.receivers[i]? = some r ∧ r.selector.direction = d := by
  obtain ⟨hmem, hd⟩ := List.mem_filter.mp h
  exact ⟨List.mk_mem_zipIdx_iff_getElem?.mp hmem, by simpa using hd⟩

end Contract

/-- Messages and contracts. -/
structure Program where
  registry : Registry
  contracts : List Contract

/-- The contract of a name. -/
def Program.contract? (p : Program) (name : String) : Option Contract :=
  p.contracts.find? (·.name == name)

end MessageRouter
