import MessageRouter.Proofs.Delivery.Priority
import MessageRouter.Proofs.Plan.Slots
/-!
# `Proofs.Delivery.Receipt` — who gets a message and runs

* `Contract.RunsReceiver`: an outcome is what the body of a receiver makes of a state.
* `Simulator.deliver_runsReceiver`: whoever the rule chooses runs.
* `Contract.first_eq_of_least`: a search finds a receiver that takes the message if none before it does.
* `Contract.exists_least_of_first`: what a search finds is such a receiver.
* `Simulator.checkSlots_of_mem`: the receivers of a direction take different slots.
-/
namespace MessageRouter

open Simulator

namespace Contract

/-- An outcome is what the body of the receiver at an index makes of a state and of what the receiver gets. -/
def RunsReceiver (c : Contract) (registry : Registry) (state : Record) (i : Nat) (received : Received)
    (result : Except Exit Outcome) : Prop :=
  ∃ p, c.procedure registry i = .ok p ∧
    result = do
      let (_, f) ← (Call.mk p received).exec p.body (Frame.ofState state)
      return ⟨f.state, true, some i⟩

variable {c : Contract} {registry : Registry} {d : Direction} {r : Receiver} {i : Nat}

/-- A search finds a receiver that takes the message if none before it does. -/
theorem first_eq_of_least {take : Receiver → Taking} {got : Except Exit Received}
    (hmem : (r, i) ∈ c.receiversFor d) (htake : take r = some got)
    (hbefore : ∀ r' j, (r', j) ∈ c.receiversFor d → j < i → take r' = none) :
    first take (c.receiversFor d) = some (got.map (.call i)) := by
  obtain ⟨before, after, hsplit⟩ := List.append_of_mem hmem
  have hpairwise := c.receiversFor_pairwise d
  have hnone : before.findSome? (taken take) = none := by
    rw [List.findSome?_eq_none_iff]
    rintro ⟨r', j⟩ hr'
    have hlt : j < i := by
      rw [hsplit, List.pairwise_append] at hpairwise
      exact hpairwise.2.2 (r', j) hr' (r, i) List.mem_cons_self
    have hother : (r', j) ∈ c.receiversFor d := by
      rw [hsplit]
      exact List.mem_append_left _ hr'
    rw [taken, hbefore r' j hother hlt]
    rfl
  have hfound : taken take (r, i) = some (got.map (.call i)) := by
    rw [taken, htake]
    rfl
  rw [first, hsplit, List.findSome?_append, hnone, List.findSome?_cons, hfound]
  rfl

/-- What a search finds, no receiver takes before. -/
theorem exists_least_of_first {take : Receiver → Taking} {choice : Except Exit (Selection Nat)}
    (h : first take (c.receiversFor d) = some choice) :
    ∃ r i got, (r, i) ∈ c.receiversFor d ∧ take r = some got ∧ choice = got.map (.call i) ∧
      ∀ r' j, (r', j) ∈ c.receiversFor d → j < i → take r' = none := by
  obtain ⟨before, ⟨r, i⟩, after, hsplit, hfound, hnone⟩ := List.findSome?_eq_some_iff.mp h
  obtain ⟨got, hgot, hchoice⟩ := Option.map_eq_some_iff.mp hfound
  have hpairwise := c.receiversFor_pairwise d
  rw [hsplit, List.pairwise_append] at hpairwise
  refine ⟨r, i, got, by simp [hsplit], hgot, hchoice.symm, fun r' j hr' hlt => ?_⟩
  rw [hsplit, List.mem_append, List.mem_cons] at hr'
  rcases hr' with hr' | heq | hr'
  · exact Option.map_eq_none_iff.mp (hnone _ hr')
  · obtain ⟨-, rfl⟩ := Prod.mk.inj heq
    exact absurd hlt (Nat.lt_irrefl _)
  · have hgt : i < j := (List.pairwise_cons.mp hpairwise.2.1).1 _ hr'
    exact absurd hlt (Nat.lt_asymm hgt)

end Contract

namespace Simulator

variable {c : Contract} {registry : Registry} {sim : Simulator} {d : Direction} {i : Nat}

/-- Whoever the rule chooses runs in the state as it is given. -/
theorem deliver_runsReceiver (h : ofContract c registry = .ok sim) (state : Record) {body : Cell}
    {isBounced : Bool} {received : Received}
    (hrule : c.rule registry d body isBounced = .ok (.call i received)) :
    c.RunsReceiver registry state i received (sim.deliver d state body isBounced) := by
  obtain ⟨r, hr, -, -⟩ := Contract.receiver_of_rule_eq_call hrule
  obtain ⟨p, -, hproc⟩ := procedures_getElem? h hr
  refine ⟨p, hproc, ?_⟩
  rw [deliver_eq_bind_rule h, hrule]
  show c.answer registry state (.call i received) = _
  simp only [Contract.answer, hproc]

/-- A direction with a receiver has a plan, for which the slots were checked. -/
theorem checkSlots_of_mem (h : ofContract c registry = .ok sim) {r : Receiver × Nat}
    (hmem : r ∈ c.receiversFor d) : c.checkSlots registry d = .ok () := by
  cases hp : sim.plan? d with
  | none =>
    obtain ⟨-, hnone⟩ := Contract.receiversFor_of_hasRouter_eq_false (hasRouter_of_plan?_eq_none h hp)
    rw [hnone] at hmem
    cases hmem
  | some p => exact (Contract.plan_eq_ok_iff.mp (plan_of_plan? h hp)).1

end Simulator
end MessageRouter
