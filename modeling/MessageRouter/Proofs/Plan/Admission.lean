import MessageRouter.Proofs.Code.Role
import MessageRouter.Proofs.Delivery.Receipt
/-!
# `Proofs.Plan.Admission` — which contracts can be simulated

* `Contract.IsAdmitted`: what a contract must be like, receiver by receiver.
* `Contract.IsAdmitted.exists_route`, `Contract.IsAdmitted.exists_plan`: such a contract has routes and plans.
* `Simulator.exists_ofContract_iff`: exactly the admitted contracts can be simulated.
-/
namespace MessageRouter
namespace Contract

/-- Of each direction one receiver takes a slot, and every receiver has a function, a payload and a body that
fits it. -/
structure IsAdmitted (c : Contract) (registry : Registry) : Prop where
  slots : ∀ d, ∀ a ∈ c.receiversFor d, ∀ b ∈ c.receiversFor d, ∀ slot,
    a.1.selector.slot registry = .ok (some slot) → b.1.selector.slot registry = .ok (some slot) → a = b
  functions : ∀ r ∈ c.receivers, ∃ f, c.functionName r = .ok f
  bodies : ∀ r ∈ c.receivers, ∃ payload, Contract.payload registry r.selector = .ok payload ∧
    c.checkReceiver payload r.body = .ok ()

variable {c : Contract} {registry : Registry} {s : Selector} {payload : Payload}

/-! ## Payloads -/

/-- A receiver with a payload takes a slot or none. -/
theorem exists_slot_of_payload (h : Contract.payload registry s = .ok payload) :
    ∃ taking, s.slot registry = .ok taking := by
  cases payload_eq_ok_iff.mp h with
  | message hl | bounced hl =>
    rw [Selector.slot, hl]
    exact ⟨_, rfl⟩
  | empty | comment | anyComment | any | anyBounced => exact ⟨_, rfl⟩

/-! ## Plans -/

/-- Every receiver of an admitted contract has a route. -/
theorem IsAdmitted.exists_route (h : c.IsAdmitted registry) {r : Receiver} (hr : r ∈ c.receivers)
    (i : Nat) : ∃ route, c.IsRoute registry r i route := by
  obtain ⟨f, hf⟩ := h.functions r hr
  obtain ⟨payload, hpayload, -⟩ := h.bodies r hr
  cases hs : r.selector with
  | message d name binding =>
    have hname : r.selector.message? = some name := by rw [hs]; rfl
    obtain ⟨l, hl⟩ := exists_layout_of_payload hpayload hname
    exact ⟨_, .message hs hl hf⟩
  | bounced name binding isPartial =>
    have hname : r.selector.message? = some name := by rw [hs]; rfl
    obtain ⟨l, hl⟩ := exists_layout_of_payload hpayload hname
    exact ⟨_, .bounced hs hl hf⟩
  | comment d text =>
    obtain ⟨tag, htag, -⟩ := (functionName_eq_ok_iff_of_comment hs).mp hf
    exact ⟨_, .comment hs htag hf⟩
  | empty d => exact ⟨_, .empty hs hf⟩
  | anyComment d binding => exact ⟨_, .anyComment hs hf⟩
  | any d binding => exact ⟨_, .any hs hf⟩
  | anyBounced binding => exact ⟨_, .anyBounced hs hf⟩

/-- An admitted contract has a plan for each direction. -/
theorem IsAdmitted.exists_plan (h : c.IsAdmitted registry) (d : Direction) :
    ∃ p, c.plan registry d = .ok p := by
  have hmem : ∀ r ∈ c.receiversFor d, r.1 ∈ c.receivers := fun r hr =>
    List.mem_of_getElem? (getElem?_of_mem_receiversFor hr).1
  have hslots : c.checkSlots registry d = .ok () := by
    refine checkSlots_eq_ok (fun r hr => ?_) (h.slots d)
    obtain ⟨payload, hpayload, -⟩ := h.bodies r.1 (hmem r hr)
    exact exists_slot_of_payload hpayload
  have hroutes : ∃ routes, c.routes registry d = .ok routes := by
    refine Fallible.exists_mapM_eq_ok fun r hr => ?_
    obtain ⟨route, hroute⟩ := h.exists_route (hmem r hr) r.2
    exact ⟨route, Fallible.mapError_eq_ok_iff.mpr hroute.route_eq_ok⟩
  obtain ⟨routes, hroutes⟩ := hroutes
  exact ⟨_, plan_eq_ok_iff.mpr ⟨hslots, routes, hroutes, rfl⟩⟩

/-- Every receiver of an admitted contract has a procedure. -/
theorem IsAdmitted.exists_procedure (h : c.IsAdmitted registry) {r : Receiver} {i : Nat}
    (hr : c.receivers[i]? = some r) : ∃ p, c.procedure registry i = .ok p := by
  obtain ⟨f, hf⟩ := h.functions r (List.mem_of_getElem? hr)
  obtain ⟨payload, hpayload, hcheck⟩ := h.bodies r (List.mem_of_getElem? hr)
  unfold procedure
  rw [hr]
  exact ⟨_, Fallible.bind_eq_ok_iff.mpr ⟨f, hf, Fallible.bind_eq_ok_iff.mpr ⟨payload, hpayload,
    Fallible.bind_eq_ok_iff.mpr ⟨(), hcheck, rfl⟩⟩⟩⟩

end Contract

namespace Simulator

variable {c : Contract} {registry : Registry}

/-- A contract that can be simulated is admitted. -/
theorem isAdmitted_of_ofContract {sim : Simulator} (h : ofContract c registry = .ok sim) :
    c.IsAdmitted registry := by
  have hprocedure : ∀ r ∈ c.receivers, ∃ i p, c.receivers[i]? = some r ∧
      c.procedure registry i = .ok p := by
    intro r hr
    obtain ⟨i, hi⟩ := List.getElem?_of_mem hr
    obtain ⟨p, -, hp⟩ := procedures_getElem? h hi
    exact ⟨i, p, hi, hp⟩
  refine ⟨?_, ?_, ?_⟩
  · intro d a ha b hb slot hslot hslot'
    exact Contract.eq_of_slot_eq (checkSlots_of_mem h ha) ha hb hslot hslot'
  · intro r hr
    obtain ⟨i, p, hi, hp⟩ := hprocedure r hr
    obtain ⟨f, payload, hf, -⟩ := Contract.procedure_of_getElem? hi hp
    exact ⟨f, hf⟩
  · intro r hr
    obtain ⟨i, p, hi, hp⟩ := hprocedure r hr
    obtain ⟨f, payload, -, hpayload, hcheck, -⟩ := Contract.procedure_of_getElem? hi hp
    exact ⟨payload, hpayload, hcheck⟩

/-- Exactly the admitted contracts can be simulated. -/
theorem exists_ofContract_iff : (∃ sim, ofContract c registry = .ok sim) ↔ c.IsAdmitted registry := by
  constructor
  · rintro ⟨sim, h⟩
    exact isAdmitted_of_ofContract h
  · intro h
    have hplans : ∃ plans, c.plans registry (fun _ => true) = .ok plans :=
      Fallible.exists_mapM_eq_ok fun d _ => h.exists_plan d
    have hprocedures : ∃ procedures, c.receivers.zipIdx.mapM (fun r =>
        (c.procedure registry r.2).mapError (Fault.atReceiver c.name r.2)) = .ok procedures := by
      refine Fallible.exists_mapM_eq_ok fun r hr => ?_
      obtain ⟨p, hp⟩ := h.exists_procedure (List.mk_mem_zipIdx_iff_getElem?.mp hr)
      exact ⟨p, Fallible.mapError_eq_ok_iff.mpr hp⟩
    obtain ⟨plans, hplans⟩ := hplans
    obtain ⟨procedures, hprocedures⟩ := hprocedures
    exact ⟨_, Fallible.bind_eq_ok_iff.mpr ⟨plans, hplans,
      Fallible.bind_eq_ok_iff.mpr ⟨procedures, hprocedures, rfl⟩⟩⟩

end Simulator
end MessageRouter
