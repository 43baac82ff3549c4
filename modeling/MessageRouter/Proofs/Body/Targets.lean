import MessageRouter.Proofs.Fallible
import MessageRouter.Simulator.Frame
/-!
# `Proofs.Body.Targets` — what a body leaves alone

* `Stmt.targets`, `bodyTargets`: the places that a statement or a body sets, at any depth.
* `Record.ChangedAt`: a state that differs from another at most in the fields that some places name.
* `Call.execStmt_changedAt`, `Call.exec_changedAt`: running a body changes the state at its targets only.
-/
namespace MessageRouter

open Fallible (Ends)

/-! ## Targets -/

mutual

/-- The places that a statement sets, those of its blocks included. -/
def Stmt.targets : Stmt → List Place
  | .set target _ => [target]
  | .branch _ thenBody elseBody => bodyTargets thenBody ++ bodyTargets elseBody
  | .declare .. | .throw _ | .ret => []

/-- The places that a body sets. -/
def bodyTargets : List Stmt → List Place
  | [] => []
  | s :: rest => s.targets ++ bodyTargets rest

end

/-! ## States -/

namespace Record

/-- A state with the fields of another, whose values are the same except at some places. -/
structure ChangedAt (targets : List Place) (before after : Record) : Prop where
  names : after.entries.map (·.1) = before.entries.map (·.1)
  others : ∀ name, ⟨Place.self, some name⟩ ∉ targets → after.get? name = before.get? name

namespace ChangedAt

variable {targets targets' : List Place} {r r' r'' : Record}

theorem refl (targets : List Place) (r : Record) : ChangedAt targets r r := ⟨rfl, fun _ _ => rfl⟩

theorem trans (h : ChangedAt targets r r') (h' : ChangedAt targets r' r'') :
    ChangedAt targets r r'' where
  names := h'.names.trans h.names
  others name hname := (h'.others name hname).trans (h.others name hname)

theorem mono (h : ChangedAt targets r r') (hsub : targets ⊆ targets') : ChangedAt targets' r r' where
  names := h.names
  others name hname := h.others name fun hmem => hname (hsub hmem)

/-- Setting a field changes the place of the field. -/
theorem set (r : Record) (name : String) (v : Value) :
    ChangedAt [⟨Place.self, some name⟩] r ((r.set? name v).getD r) := by
  cases hset : r.set? name v with
  | none => exact refl _ r
  | some r' =>
    refine ⟨names_of_set? hset, fun other hother => ?_⟩
    have hne : other ≠ name := by
      intro he
      subst he
      exact hother List.mem_cons_self
    rw [Option.getD_some, get?_of_set? hset, if_neg hne]

end ChangedAt
end Record

/-! ## Running -/

namespace Simulator

/-- A change of the locals is none of the state. -/
theorem Frame.state_of_setLocal? {f f' : Frame} {name : String} {v : Value}
    (h : f.setLocal? name v = some f') : f'.state = f.state := by
  rcases setLocal?_eq_some_iff.mp h with ⟨inner, -, rfl⟩ | ⟨-, outer, -, rfl⟩
  · rfl
  · rfl

@[simp] theorem Frame.state_pop (f : Frame) : f.pop.state = f.state := by
  obtain ⟨state, inner, outer⟩ := f
  cases outer <;> rfl

namespace Call

variable {c : Call}

/-- A run that succeeds changes the state of a frame at some places. -/
abbrev Changes (targets : List Place) (f : Frame) (x : Except Exit (Flow × Frame)) : Prop :=
  Ends (fun r => Record.ChangedAt targets f.state r.2.state) (fun _ => True) x

/-- A store changes the state at its target. A field without a name is none of the state. -/
theorem store_changedAt (hnamed : Scope.field? c.procedure.stateFields "" = none) (f : Frame)
    (p : Place) (v : Value) :
    Ends (fun f' => Record.ChangedAt [p] f.state f'.state) (fun _ => True) (c.store f p v) := by
  obtain ⟨root, field⟩ := p
  unfold store
  by_cases hself : root = Place.self
  · subst hself
    rw [if_pos rfl]
    unfold storeState
    -- the field that is stored is the one that is named, unless no name is given
    cases hfield : Scope.field? c.procedure.stateFields (field.getD "") with
    | none => trivial
    | some stored =>
      cases field with
      | none =>
        rw [Option.getD_none, hnamed] at hfield
        cases hfield
      | some name =>
        dsimp only
        split
        · exact Record.ChangedAt.set f.state name v
        · trivial
  · rw [if_neg hself]
    cases hset : f.setLocal? root v with
    | none => trivial
    | some f' =>
      show Record.ChangedAt _ f.state f'.state
      rw [Frame.state_of_setLocal? hset]
      exact .refl _ _

mutual

/-- Running a statement changes the state at its targets only. -/
theorem execStmt_changedAt (hnamed : Scope.field? c.procedure.stateFields "" = none) (s : Stmt)
    (f : Frame) : Changes s.targets f (c.execStmt s f) := by
  have hany {x : Except Exit Value} : Ends (fun _ => True) (fun _ => True) x := by
    cases x <;> trivial
  cases s with
  | declare name value => exact hany.bind fun v _ => .refl _ f.state
  | set target value =>
    refine hany.bind fun v _ => ?_
    exact (store_changedAt hnamed f target v).bind fun f' hf' => hf'
  | branch cond thenBody elseBody =>
    have hthen := exec_changedAt hnamed thenBody f.push
    have helse := exec_changedAt hnamed elseBody f.push
    -- closing the block of a branch drops locals only
    have hpop (targets : List Place) (r : Flow × Frame)
        (hr : Record.ChangedAt targets f.state r.2.state) :
        Record.ChangedAt targets f.state r.2.pop.state := by
      rw [Frame.state_pop]
      exact hr
    refine hany.bind fun v _ => ?_
    cases truth v with
    | error e => trivial
    | ok b =>
      cases b with
      | true =>
        refine (hthen.imp (fun r hr => ?_) fun _ h => h).bind fun r hr => hpop _ r hr
        exact hr.mono (List.subset_append_left _ _)
      | false =>
        refine (helse.imp (fun r hr => ?_) fun _ h => h).bind fun r hr => hpop _ r hr
        exact hr.mono (List.subset_append_right _ _)
  | throw code => trivial
  | ret => exact .refl _ f.state

/-- Running a body changes the state at its targets only. -/
theorem exec_changedAt (hnamed : Scope.field? c.procedure.stateFields "" = none) (body : List Stmt)
    (f : Frame) : Changes (bodyTargets body) f (c.exec body f) := by
  cases body with
  | nil => exact .refl _ f.state
  | cons s rest =>
    refine (execStmt_changedAt hnamed s f).bind ?_
    rintro ⟨flow, f'⟩ hfirst
    have hbefore := Record.ChangedAt.mono hfirst (List.subset_append_left s.targets (bodyTargets rest))
    cases flow with
    | returned => exact hbefore
    | next =>
      refine (exec_changedAt hnamed rest f').imp (fun r hr => hbefore.trans ?_) fun _ h => h
      exact hr.mono (List.subset_append_right _ _)

end

end Call
end Simulator
end MessageRouter
