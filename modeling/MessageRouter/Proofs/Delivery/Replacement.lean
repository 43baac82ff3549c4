import MessageRouter.Proofs.Delivery.Transfer
/-!
# `Proofs.Delivery.Replacement` — one body in place of another

* `Contract.withBody`: a contract with another body for one of its receivers.
* `Contract.plans_withBody`: plans do not look at bodies.
* `Procedure.Interchangeable`: procedures that leave the same state or end early in the same way.
* `Simulator.Interchangeable.deliver_eq`: with such procedures every message is delivered alike.
* `Simulator.alike_ofContract_withBody`: a body that is checked alike and leaves the same state can stand in
  place of another.
-/
namespace MessageRouter

open Simulator

/-! ## Bodies in contracts -/

namespace Contract

variable {c : Contract} {registry : Registry} {i : Nat} {r : Receiver}

/-- The contract with another body for the receiver at an index. -/
def withBody (c : Contract) (i : Nat) (body : List Stmt) : Contract :=
  { c with receivers := c.receivers.modify i fun r => { r with body := body } }

/-- A receiver, with another body if it stands at an index. -/
def rebody (i : Nat) (body : List Stmt) (r : Receiver × Nat) : Receiver × Nat :=
  (if r.2 = i then { r.1 with body := body } else r.1, r.2)

theorem selector_rebody (i : Nat) (body : List Stmt) (r : Receiver × Nat) :
    (rebody i body r).1.selector = r.1.selector := by
  unfold rebody
  split <;> rfl

theorem getElem?_withBody (hr : c.receivers[i]? = some r) (body : List Stmt) :
    (c.withBody i body).receivers[i]? = some { r with body := body } := by
  rw [withBody, List.getElem?_modify_eq, hr]
  rfl

theorem getElem?_withBody_of_ne {j : Nat} (hj : j ≠ i) (body : List Stmt) :
    (c.withBody i body).receivers[j]? = c.receivers[j]? := by
  rw [withBody, List.getElem?_modify_ne _ _ hj.symm]

/-- Of two bodies put in one place, the later one counts. -/
theorem withBody_withBody (c : Contract) (i : Nat) (body body' : List Stmt) :
    (c.withBody i body).withBody i body' = c.withBody i body' := by
  unfold withBody
  rw [List.modify_modify_eq]
  rfl

/-- All receivers keep their places. -/
theorem zipIdx_withBody (c : Contract) (i : Nat) (body : List Stmt) :
    (c.withBody i body).receivers.zipIdx = c.receivers.zipIdx.map (rebody i body) := by
  refine List.ext_getElem? fun j => ?_
  rw [List.getElem?_zipIdx, List.getElem?_map, List.getElem?_zipIdx, withBody, List.getElem?_modify]
  cases c.receivers[j]? with
  | none => rfl
  | some r => by_cases hj : i = j <;> simp [rebody, hj, eq_comm]

theorem receiversFor_withBody (c : Contract) (i : Nat) (body : List Stmt) (d : Direction) :
    (c.withBody i body).receiversFor d = (c.receiversFor d).map (rebody i body) := by
  rw [receiversFor, receiversFor, zipIdx_withBody, List.filter_map]
  refine congrArg (List.map _) (List.filter_congr fun r _ => ?_)
  rw [Function.comp_apply, selector_rebody]

/-! ## Plans -/

theorem checkSlotsFrom_map_rebody (body : List Stmt) (taken : List (Slot × Nat))
    (rs : List (Receiver × Nat)) :
    (c.withBody i body).checkSlotsFrom registry taken (rs.map (rebody i body)) =
      c.checkSlotsFrom registry taken rs := by
  induction rs generalizing taken with
  | nil => rfl
  | cons r rest ih =>
    show checkSlotsFrom _ _ _ (((rebody i body r).1, r.2) :: _) = checkSlotsFrom _ _ _ ((r.1, r.2) :: _)
    rw [checkSlotsFrom, checkSlotsFrom, selector_rebody]
    simp only [ih]
    rfl

/-- The route of a receiver does not depend on the body. -/
theorem route_rebody (body : List Stmt) (r : Receiver × Nat) :
    (c.withBody i body).route registry (rebody i body r).1 r.2 = c.route registry r.1 r.2 := by
  unfold rebody
  split <;> rfl

theorem receives_eq_any_zipIdx (c : Contract) (d : Direction) :
    c.receives d = c.receivers.zipIdx.any (·.1.selector.direction == d) := by
  conv_lhs => rw [receives, ← List.zipIdx_map_fst 0 c.receivers, List.any_map]
  rfl

/-- The plans of a contract do not depend on the bodies. -/
theorem plans_withBody (c : Contract) (registry : Registry) (i : Nat) (body : List Stmt)
    (wanted : Direction → Bool) : (c.withBody i body).plans registry wanted = c.plans registry wanted := by
  have hslots (d : Direction) :
      (c.withBody i body).checkSlots registry d = c.checkSlots registry d := by
    rw [checkSlots, receiversFor_withBody]
    exact checkSlotsFrom_map_rebody body [] _
  have hroutes (d : Direction) : (c.withBody i body).routes registry d = c.routes registry d := by
    rw [routes, routes, receiversFor_withBody, List.mapM_map]
    refine congrArg (List.mapM · _) (funext fun r => ?_)
    exact congrArg (Except.mapError _) (route_rebody body r)
  have hplan : (c.withBody i body).plan registry = c.plan registry := by
    funext d
    rw [plan, plan, hslots, hroutes]
    rfl
  have hrouter (d : Direction) : (c.withBody i body).hasRouter d = c.hasRouter d := by
    rw [hasRouter, hasRouter, receives_eq_any_zipIdx, receives_eq_any_zipIdx, zipIdx_withBody,
      List.any_map]
    simp only [Function.comp_def, selector_rebody]
  unfold plans
  rw [hplan]
  simp only [hrouter]

end Contract

/-! ## Procedures that can stand for each other -/

/-- Procedures for the same messages that leave the same state or end early in the same way. -/
structure Procedure.Interchangeable (p q : Procedure) : Prop where
  selector : p.selector = q.selector
  exec : ∀ received f, ((Call.mk p received).exec p.body f).map (·.2.state) =
    ((Call.mk q received).exec q.body f).map (·.2.state)

theorem Procedure.Interchangeable.refl (p : Procedure) : p.Interchangeable p := ⟨rfl, fun _ _ => rfl⟩

namespace Simulator

/-- Simulators that only differ in procedures that can stand for each other. -/
structure Interchangeable (sim sim' : Simulator) : Prop where
  registry : sim.registry = sim'.registry
  plans : sim.plans = sim'.plans
  procedures : List.Forall₂ Procedure.Interchangeable sim.procedures sim'.procedures

/-- Simulators that deliver every message alike, from any state. -/
def SameDeliveries (sim sim' : Simulator) : Prop :=
  ∀ d state body isBounced, sim.deliver d state body isBounced = sim'.deliver d state body isBounced

namespace Interchangeable

variable {sim sim' : Simulator}

/-- The procedures at one index, if there are any, can stand for each other. -/
theorem rel_getElem? (h : sim.Interchangeable sim') (i : Nat) :
    Option.Rel Procedure.Interchangeable sim.procedures[i]? sim'.procedures[i]? := by
  have hall := h.procedures
  generalize sim.procedures = ps at hall
  generalize sim'.procedures = qs at hall
  induction hall generalizing i with
  | nil => exact .none
  | cons hpq _ ih =>
    cases i with
    | zero => exact .some hpq
    | succ i => exact ih i

theorem layout?_eq (h : sim.Interchangeable sim') : sim.layout? = sim'.layout? := by
  funext hd
  unfold layout?
  rw [h.registry]
  have hrel := h.rel_getElem? hd.receiver
  generalize sim.procedures[hd.receiver]? = x at hrel
  generalize sim'.procedures[hd.receiver]? = y at hrel
  cases hrel with
  | none => rfl
  | some hpq => exact congrArg (fun s : Selector => s.message?.bind _) hpq.selector

theorem readStruct_eq (h : sim.Interchangeable sim') : sim.readStruct = sim'.readStruct := by
  funext hd isPartial s
  rw [readStruct, readStruct, h.layout?_eq]

/-- A receiver leaves the same state in both, as nothing else of its frame is looked at. -/
theorem call_eq (h : sim.Interchangeable sim') : sim.call = sim'.call := by
  funext hd state received
  unfold call
  have hrel := h.rel_getElem? hd.receiver
  generalize sim.procedures[hd.receiver]? = x at hrel
  generalize sim'.procedures[hd.receiver]? = y at hrel
  cases hrel with
  | none => rfl
  | @some p q hpq =>
    -- the outcome is made of the state alone
    have houtcome (x : Except Exit (Flow × Frame)) :
        (x >>= fun stop => pure ⟨stop.2.state, true, some hd.receiver⟩) =
          (x.map (·.2.state)).map fun s => (⟨s, true, some hd.receiver⟩ : Outcome) := by
      cases x <;> rfl
    refine (houtcome _).trans (Eq.trans ?_ (houtcome _).symm)
    rw [hpq.exec received (Frame.ofState state)]

/-- The same plans choose for a message, and whoever is chosen leaves the same state. -/
theorem deliver_eq (h : sim.Interchangeable sim') : sim.SameDeliveries sim' := by
  intro d state body isBounced
  unfold deliver plan?
  rw [h.plans]
  simp only [deliverBounced, deliverPlain, deliverOpcode, deliverAny, h.call_eq, h.readStruct_eq]

end Interchangeable
end Simulator

/-! ## Simulators of a contract with another body -/

namespace Contract

variable {c : Contract} {registry : Registry} {i : Nat} {r : Receiver} {body : List Stmt}

/-- The procedures of the receivers whose body stays are what they were. -/
theorem procedure_withBody_of_ne {j : Nat} (hj : j ≠ i) :
    (c.withBody i body).procedure registry j = c.procedure registry j := by
  unfold procedure
  rw [getElem?_withBody_of_ne hj]
  rfl

/-- The procedure of a receiver with another body, if that is checked alike. -/
theorem procedure_withBody (hr : c.receivers[i]? = some r)
    (hcheck : ∀ payload, Contract.payload registry r.selector = .ok payload →
      c.checkReceiver payload body = c.checkReceiver payload r.body) :
    (c.withBody i body).procedure registry i =
      (c.procedure registry i).map fun p => { p with body := body, implicitReturn := !endsInReturn body } := by
  unfold procedure
  rw [getElem?_withBody hr, hr]
  show (c.functionName r >>= _) = Except.map _ (c.functionName r >>= _)
  cases c.functionName r with
  | error e => rfl
  | ok f =>
    show (Contract.payload registry r.selector >>= _) =
      Except.map _ (Contract.payload registry r.selector >>= _)
    cases hp : Contract.payload registry r.selector with
    | error e => rfl
    | ok payload =>
      show (c.checkReceiver payload body >>= _) = Except.map _ (c.checkReceiver payload r.body >>= _)
      rw [hcheck payload hp]
      cases c.checkReceiver payload r.body <;> rfl

/-- The procedures at each index can stand for each other if the bodies do and are checked alike. -/
theorem alike_procedure_withBody (hr : c.receivers[i]? = some r)
    (hcheck : ∀ payload, Contract.payload registry r.selector = .ok payload →
      c.checkReceiver payload body = c.checkReceiver payload r.body)
    (hexec : ∀ (call : Call) f,
      (call.exec r.body f).map (·.2.state) = (call.exec body f).map (·.2.state)) (j : Nat) :
    Fallible.Alike Procedure.Interchangeable (c.procedure registry j)
      ((c.withBody i body).procedure registry j) := by
  by_cases hj : j = i
  · subst hj
    rw [procedure_withBody hr hcheck]
    cases hp : c.procedure registry j with
    | error e => exact .error e
    | ok p =>
      refine .ok ⟨rfl, fun received f => ?_⟩
      obtain ⟨_, _, -, -, -, hpeq⟩ := procedure_of_getElem? hr hp
      have hbody : p.body = r.body := by rw [hpeq]
      have hsame : (Call.mk { p with body := body, implicitReturn := !endsInReturn body } received).Same
          (Call.mk p received) := ⟨rfl, rfl, rfl⟩
      rw [hbody, hsame.exec_eq]
      exact hexec _ f
  · rw [procedure_withBody_of_ne hj]
    exact (Fallible.Alike.self _).imp fun p q hpq => hpq.1 ▸ .refl p

end Contract

/-- A body that is checked alike and leaves the same state can stand in place of another: both contracts can
be simulated, and then deliver alike, or both cannot, for the same fault. -/
theorem Simulator.alike_ofContract_withBody {c : Contract} {registry : Registry} {i : Nat} {r : Receiver}
    {body : List Stmt} (hr : c.receivers[i]? = some r)
    (hcheck : ∀ payload, Contract.payload registry r.selector = .ok payload →
      c.checkReceiver payload body = c.checkReceiver payload r.body)
    (hexec : ∀ (call : Call) f,
      (call.exec r.body f).map (·.2.state) = (call.exec body f).map (·.2.state)) :
    Fallible.Alike SameDeliveries (ofContract c registry) (ofContract (c.withBody i body) registry) := by
  unfold ofContract
  rw [Contract.plans_withBody, Contract.zipIdx_withBody, List.mapM_map]
  refine (Fallible.Alike.self _).bind fun plans plans' hplans => ?_
  have hprocedures : Fallible.Alike (List.Forall₂ Procedure.Interchangeable)
      (c.receivers.zipIdx.mapM fun r => (c.procedure registry r.2).mapError (Fault.atReceiver c.name r.2))
      (c.receivers.zipIdx.mapM fun r =>
        ((c.withBody i body).procedure registry r.2).mapError (Fault.atReceiver c.name r.2)) :=
    .mapM fun r _ => (Contract.alike_procedure_withBody hr hcheck hexec r.2).mapError _
  refine hprocedures.bind fun ps qs hpq => .ok ?_
  exact Interchangeable.deliver_eq ⟨rfl, hplans.1, hpq⟩

end MessageRouter
