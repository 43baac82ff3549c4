import MessageRouter.Contract.Procedure
import MessageRouter.Proofs.Fallible
/-!
# `Proofs.Code.Role` — what the functions of a contract are for

* `Func.Name.Role`: what a function of a contract is for, as its name tells.
* `Contract.IsRole`, `Contract.exists_role_of_functionName`: what the function of a receiver is for.
* `Contract.functionName_eq_ok_iff_of_comment`: the function of a comment is named by its tag, if it has one.
-/
namespace MessageRouter

namespace Func.Name

/-- Which messages of a direction a function is for. -/
inductive What where
  | message (type : String)
  | empty
  /-- Comments of one tag. The receiver of any comment has a word in the place of the tag. -/
  | comment (tag : String)
  | any

/-- What a function of a contract is for. -/
inductive Role where
  | router (d : Direction)
  | receive (d : Direction) (what : What)
  | bounced (type : String)
  | anyBounced

def What.text : What → String
  | message type => "binary_" ++ type
  | empty => "empty"
  | comment tag => "text_" ++ tag
  | any => "any"

/-- The name of a function. -/
def Role.name (contract : String) : Role → String
  | router d => Name.router contract d
  | receive d what => Name.receive contract d what.text
  | bounced type => receiveBounced contract type
  | anyBounced => receiveAnyBounced contract

end Func.Name

namespace Contract

/-- What the function of a receiver is for. -/
inductive IsRole (r : Receiver) : Func.Name.Role → Prop where
  | message {d name binding} (hs : r.selector = .message d name binding) :
      IsRole r (.receive d (.message name))
  | empty {d} (hs : r.selector = .empty d) : IsRole r (.receive d .empty)
  | comment {d text tag} (hs : r.selector = .comment d text) (ht : Comment.tag text r.loc = .ok tag) :
      IsRole r (.receive d (.comment tag))
  | anyComment {d binding} (hs : r.selector = .anyComment d binding) :
      IsRole r (.receive d (.comment "any"))
  | any {d binding} (hs : r.selector = .any d binding) : IsRole r (.receive d .any)
  | bounced {name binding isPartial} (hs : r.selector = .bounced name binding isPartial) :
      IsRole r (.bounced name)
  | anyBounced {binding} (hs : r.selector = .anyBounced binding) : IsRole r .anyBounced

variable {c : Contract} {r : Receiver}

/-- A tag is the hash of a cell. -/
theorem exists_cell_of_tag {text tag : String} {loc : Option Span} (h : Comment.tag text loc = .ok tag) :
    ∃ cell, Comment.cell text = .ok cell ∧ tag = cell.hashText := by
  unfold Comment.tag at h
  split at h
  · exact nomatch h
  · obtain ⟨cell, hcell, rfl⟩ := Fallible.map_eq_ok_iff.mp h
    exact ⟨cell, hcell, rfl⟩

/-- The function of a comment is named by its tag, and there is none for a text that has no tag. -/
theorem functionName_eq_ok_iff_of_comment {d : Direction} {text f : String}
    (hs : r.selector = .comment d text) :
    c.functionName r = .ok f ↔
      ∃ tag, Comment.tag text r.loc = .ok tag ∧
        f = (Func.Name.Role.receive d (.comment tag)).name c.name := by
  unfold functionName
  rw [hs]
  dsimp only
  constructor
  · intro h
    split at h
    · next tag htag => exact ⟨tag, htag, (Except.ok.inj h).symm⟩
    · exact nomatch h
  · rintro ⟨tag, htag, rfl⟩
    rw [htag]
    rfl

/-- The function of a receiver is named for what it is for. -/
theorem exists_role_of_functionName {f : String} (h : c.functionName r = .ok f) :
    ∃ role, IsRole r role ∧ f = role.name c.name := by
  cases hs : r.selector with
  | comment d text =>
    obtain ⟨tag, htag, hf⟩ := (functionName_eq_ok_iff_of_comment hs).mp h
    exact ⟨_, .comment hs htag, hf⟩
  | message d name binding =>
    rw [functionName, hs] at h
    exact ⟨_, .message hs, (Except.ok.inj h).symm⟩
  | empty d =>
    rw [functionName, hs] at h
    exact ⟨_, .empty hs, (Except.ok.inj h).symm⟩
  | anyComment d binding =>
    rw [functionName, hs] at h
    exact ⟨_, .anyComment hs, (Except.ok.inj h).symm⟩
  | any d binding =>
    rw [functionName, hs] at h
    exact ⟨_, .any hs, (Except.ok.inj h).symm⟩
  | bounced name binding isPartial =>
    rw [functionName, hs] at h
    exact ⟨_, .bounced hs, (Except.ok.inj h).symm⟩
  | anyBounced binding =>
    rw [functionName, hs] at h
    exact ⟨_, .anyBounced hs, (Except.ok.inj h).symm⟩

end Contract
end MessageRouter
