import MessageRouter.Proofs.Fallible
import MessageRouter.Simulator.Basic
/-!
# `Proofs.Plan.Route` — where the parts of a plan and of a simulator come from

* `Plan.Route.handler`: who is called by a route.
* `Contract.IsRoute`: the route of a receiver, one case for each kind of selector.
* `Contract.plan_eq_ok_iff`: a plan is made of the routes of the receivers of its direction.
* `Contract.procedure_eq_ok`, `Contract.procedure_of_getElem?`: the parts of a procedure are those of its receiver.
* `Contract.IsPayload`, `Contract.payload_eq_ok_iff`: what a receiver gets, one case for each kind of selector.
* `Simulator.plan_of_plan?`, `Simulator.procedures_getElem?`: so are the plans and procedures of a simulator.
-/
namespace MessageRouter

/-! ## Routes -/

namespace Plan.Route

variable {route : Plan.Route}

/-- Who is called by a route. -/
def handler : Plan.Route → Plan.Handler
  | opcode arm => arm.handler
  | comment arm => arm.handler
  | bounced arm => arm.handler
  | anyComment h | any h | anyBounced h => h

theorem eq_of_opcode? {arm : OpcodeArm} (h : route.opcode? = some arm) : route = .opcode arm := by
  cases route <;> cases h
  rfl

theorem eq_of_comment? {arm : CommentArm} (h : route.comment? = some arm) : route = .comment arm := by
  cases route <;> cases h
  rfl

theorem eq_of_anyComment? {handler : Handler} (h : route.anyComment? = some handler) :
    route = .anyComment handler := by
  cases route <;> cases h
  rfl

theorem eq_of_any? {handler : Handler} (h : route.any? = some handler) : route = .any handler := by
  cases route <;> cases h
  rfl

theorem eq_of_bounced? {arm : BounceArm} (h : route.bounced? = some arm) : route = .bounced arm := by
  cases route <;> cases h
  rfl

theorem eq_of_anyBounced? {handler : Handler} (h : route.anyBounced? = some handler) :
    route = .anyBounced handler := by
  cases route <;> cases h
  rfl

end Plan.Route

namespace Contract

/-- The route of a receiver, one case for each kind of selector. -/
inductive IsRoute (c : Contract) (registry : Registry) (r : Receiver) (index : Nat) :
    Plan.Route → Prop where
  | message {d name binding l f} (hs : r.selector = .message d name binding)
      (hl : registry.layout name = .ok l) (hf : c.functionName r = .ok f) :
      IsRoute c registry r index
        (.opcode (.message name l.header (Plan.readerName l.message.name false) ⟨index, f⟩))
  | empty {d f} (hs : r.selector = .empty d) (hf : c.functionName r = .ok f) :
      IsRoute c registry r index (.opcode (.empty ⟨index, f⟩))
  | comment {d text tag f} (hs : r.selector = .comment d text)
      (ht : Comment.tag text r.loc = .ok tag) (hf : c.functionName r = .ok f) :
      IsRoute c registry r index (.comment ⟨text, tag, ⟨index, f⟩⟩)
  | anyComment {d binding f} (hs : r.selector = .anyComment d binding)
      (hf : c.functionName r = .ok f) : IsRoute c registry r index (.anyComment ⟨index, f⟩)
  | any {d binding f} (hs : r.selector = .any d binding) (hf : c.functionName r = .ok f) :
      IsRoute c registry r index (.any ⟨index, f⟩)
  | bounced {name binding isPartial l f} (hs : r.selector = .bounced name binding isPartial)
      (hl : registry.layout name = .ok l) (hf : c.functionName r = .ok f) :
      IsRoute c registry r index
        (.bounced ⟨name, l.header, Plan.readerName l.message.name isPartial, isPartial, ⟨index, f⟩⟩)
  | anyBounced {binding f} (hs : r.selector = .anyBounced binding)
      (hf : c.functionName r = .ok f) : IsRoute c registry r index (.anyBounced ⟨index, f⟩)

/-- A receiver that has a route has the one of its selector. -/
theorem isRoute_of_route_eq_ok {c : Contract} {registry : Registry} {r : Receiver} {index : Nat}
    {route : Plan.Route} (h : c.route registry r index = .ok route) :
    c.IsRoute registry r index route := by
  unfold Contract.route at h
  obtain ⟨f, hf, h⟩ := Fallible.bind_eq_ok_iff.mp h
  cases hs : r.selector with
  | message d name binding =>
    simp only [hs] at h
    obtain ⟨l, hl, h⟩ := Fallible.bind_eq_ok_iff.mp h
    exact Except.ok.inj h ▸ .message hs (Fallible.mapError_eq_ok_iff.mp hl) hf
  | empty d =>
    simp only [hs] at h
    exact Except.ok.inj h ▸ .empty hs hf
  | comment d text =>
    simp only [hs] at h
    obtain ⟨tag, ht, h⟩ := Fallible.bind_eq_ok_iff.mp h
    exact Except.ok.inj h ▸ .comment hs (Fallible.mapError_eq_ok_iff.mp ht) hf
  | anyComment d binding =>
    simp only [hs] at h
    exact Except.ok.inj h ▸ .anyComment hs hf
  | any d binding =>
    simp only [hs] at h
    exact Except.ok.inj h ▸ .any hs hf
  | bounced name binding isPartial =>
    simp only [hs] at h
    obtain ⟨l, hl, h⟩ := Fallible.bind_eq_ok_iff.mp h
    exact Except.ok.inj h ▸ .bounced hs (Fallible.mapError_eq_ok_iff.mp hl) hf
  | anyBounced binding =>
    simp only [hs] at h
    exact Except.ok.inj h ▸ .anyBounced hs hf

/-- A receiver with the route of its selector has that route. -/
theorem IsRoute.route_eq_ok {c : Contract} {registry : Registry} {r : Receiver} {index : Nat}
    {route : Plan.Route} (h : c.IsRoute registry r index route) :
    c.route registry r index = .ok route := by
  unfold Contract.route
  cases h with
  | message hs hl hf | bounced hs hl hf =>
    simp only [hs, hl, hf]
    rfl
  | comment hs ht hf =>
    simp only [hs, ht, hf]
    rfl
  | empty hs hf | anyComment hs hf | any hs hf | anyBounced hs hf =>
    simp only [hs, hf]
    rfl

/-- A route calls the function of its receiver. -/
theorem IsRoute.handler_eq {c : Contract} {registry : Registry} {r : Receiver} {index : Nat}
    {route : Plan.Route} (h : c.IsRoute registry r index route) :
    route.handler.receiver = index ∧ c.functionName r = .ok route.handler.function := by
  cases h with
  | message hs hl hf | empty hs hf | comment hs ht hf | anyComment hs hf | any hs hf
  | bounced hs hl hf | anyBounced hs hf => exact ⟨rfl, hf⟩

/-- The routes of a direction are those of its receivers, in their order. -/
theorem forall₂_of_routes_eq_ok {c : Contract} {registry : Registry} {d : Direction}
    {routes : List Plan.Route} (h : c.routes registry d = .ok routes) :
    List.Forall₂ (fun r route => c.receivers[r.2]? = some r.1 ∧ c.IsRoute registry r.1 r.2 route)
      (c.receiversFor d) routes := by
  refine (List.forall₂_and_left _ _).mpr ⟨fun r hr => (getElem?_of_mem_receiversFor hr).1, ?_⟩
  exact (Fallible.mapM_eq_ok_iff.mp h).imp fun _ _ hr =>
    isRoute_of_route_eq_ok (Fallible.mapError_eq_ok_iff.mp hr)

end Contract

/-! ## Plans -/

/-- The stages that some routes make. -/
def Plan.ofRoutes (c : Contract) (d : Direction) (routes : List Plan.Route) : Plan where
  contract := c.name
  direction := d
  function := Func.Name.router c.name d
  stateFields := c.fields
  bounced :=
    match d with
    | .internal => some ⟨routes.filterMap Plan.Route.bounced?, routes.findSome? Plan.Route.anyBounced?⟩
    | .external => none
  opcodes := routes.filterMap Plan.Route.opcode?
  comments :=
    Plan.commentStage (Plan.firstOfTag (routes.filterMap Plan.Route.comment?))
      (routes.findSome? Plan.Route.anyComment?)
  fallback := routes.findSome? Plan.Route.any?

namespace Contract

/-- A plan is made of the routes of the receivers of its direction, where no two take one slot. -/
theorem plan_eq_ok_iff {c : Contract} {registry : Registry} {d : Direction} {p : Plan} :
    c.plan registry d = .ok p ↔
      c.checkSlots registry d = .ok () ∧
        ∃ routes, c.routes registry d = .ok routes ∧ p = Plan.ofRoutes c d routes := by
  unfold plan
  rw [Fallible.bind_eq_ok_iff]
  constructor
  · rintro ⟨_, hslots, h⟩
    obtain ⟨routes, hroutes, h⟩ := Fallible.bind_eq_ok_iff.mp h
    exact ⟨hslots, routes, hroutes, (Except.ok.inj h).symm⟩
  · rintro ⟨hslots, routes, hroutes, rfl⟩
    exact ⟨(), hslots, Fallible.bind_eq_ok_iff.mpr ⟨routes, hroutes, rfl⟩⟩

/-- A direction without a router is the external one, and has no receivers. -/
theorem receiversFor_of_hasRouter_eq_false {c : Contract} {d : Direction}
    (h : c.hasRouter d = false) : d = .external ∧ c.receiversFor d = [] := by
  obtain ⟨hd, hnone⟩ := Bool.or_eq_false_iff.mp h
  refine ⟨by cases d with | internal => exact nomatch hd | external => rfl, ?_⟩
  rw [receiversFor, List.filter_eq_nil_iff]
  intro r hr hdir
  exact List.any_eq_false.mp hnone r.1 (List.fst_mem_of_mem_zipIdx hr) hdir

/-! ## Procedures -/

/-- The parts of a procedure are those of its receiver, whose body was checked. -/
theorem procedure_eq_ok {c : Contract} {registry : Registry} {index : Nat} {p : Procedure}
    (h : c.procedure registry index = .ok p) :
    ∃ r function payload, c.receivers[index]? = some r ∧ c.functionName r = .ok function ∧
      Contract.payload registry r.selector = .ok payload ∧
      c.checkReceiver payload r.body = .ok () ∧
      p = ⟨c.name, index, r.selector, function, c.fields, payload, r.body, !endsInReturn r.body⟩ := by
  unfold procedure at h
  cases hr : c.receivers[index]? with
  | none => rw [hr] at h; exact nomatch h
  | some r =>
    rw [hr] at h
    obtain ⟨function, hf, h⟩ := Fallible.bind_eq_ok_iff.mp h
    obtain ⟨payload, hp, h⟩ := Fallible.bind_eq_ok_iff.mp h
    obtain ⟨_, hc, h⟩ := Fallible.bind_eq_ok_iff.mp h
    exact ⟨r, function, payload, rfl, hf, hp, hc, (Except.ok.inj h).symm⟩

/-- The procedure of a receiver that is known. -/
theorem procedure_of_getElem? {c : Contract} {registry : Registry} {index : Nat} {r : Receiver}
    (hr : c.receivers[index]? = some r) {p : Procedure} (h : c.procedure registry index = .ok p) :
    ∃ function payload, c.functionName r = .ok function ∧
      Contract.payload registry r.selector = .ok payload ∧ c.checkReceiver payload r.body = .ok () ∧
      p = ⟨c.name, index, r.selector, function, c.fields, payload, r.body, !endsInReturn r.body⟩ := by
  obtain ⟨r', function, payload, hr', hrest⟩ := procedure_eq_ok h
  obtain rfl : r = r' := Option.some.inj (hr.symm.trans hr')
  exact ⟨function, payload, hrest⟩

/-- A receiver that is checked has a body that fits its payload. -/
theorem checkBody_of_checkReceiver {c : Contract} {payload : Payload} {body : List Stmt}
    (h : c.checkReceiver payload body = .ok ()) :
    ∃ t, checkBody body (Scope.ofReceiver c.fields payload) = .ok () t := by
  unfold checkReceiver at h
  split at h
  · next t ht => exact ⟨t, ht⟩
  · exact nomatch h

/-- What the receiver of a selector gets, one case for each kind: a struct of a layout, a slice or nothing. -/
inductive IsPayload (registry : Registry) : Selector → Payload → Prop where
  | message {d name binding l} (hl : registry.layout name = .ok l) :
      IsPayload registry (.message d name binding) (.ofLayout binding l false)
  | empty {d} : IsPayload registry (.empty d) .none
  | comment {d text} : IsPayload registry (.comment d text) .none
  | anyComment {d binding} : IsPayload registry (.anyComment d binding) (.slice binding)
  | any {d binding} : IsPayload registry (.any d binding) (.slice binding)
  | bounced {name binding isPartial l} (hl : registry.layout name = .ok l) :
      IsPayload registry (.bounced name binding isPartial) (.ofLayout binding l isPartial)
  | anyBounced {binding} : IsPayload registry (.anyBounced binding) (.slice binding)

/-- The payload of a selector is what its receiver gets. -/
theorem payload_eq_ok_iff {registry : Registry} {s : Selector} {payload : Payload} :
    Contract.payload registry s = .ok payload ↔ IsPayload registry s payload := by
  constructor
  · intro h
    cases s with
    | message d name binding | bounced name binding isPartial =>
      unfold Contract.payload at h
      dsimp only at h
      cases hl : registry.layout name with
      | error cause =>
        rw [hl] at h
        exact nomatch h
      | ok l =>
        rw [hl] at h
        obtain rfl := Except.ok.inj h
        constructor
        exact hl
    | empty | comment | anyComment | any | anyBounced =>
      obtain rfl := Except.ok.inj h
      constructor
  · intro h
    unfold Contract.payload
    cases h with
    | message hl | bounced hl =>
      dsimp only
      rw [hl]
    | empty | comment | anyComment | any | anyBounced => rfl

/-- A message that a receiver gets has a layout. -/
theorem exists_layout_of_payload {registry : Registry} {s : Selector} {payload : Payload}
    (h : Contract.payload registry s = .ok payload) {name : String}
    (hname : s.message? = some name) : ∃ l, registry.layout name = .ok l := by
  cases payload_eq_ok_iff.mp h with
  | message hl | bounced hl =>
    obtain rfl := Option.some.inj hname
    exact ⟨_, hl⟩
  | empty | comment | anyComment | any | anyBounced => exact nomatch hname

end Contract

/-! ## Simulators -/

namespace Simulator

variable {c : Contract} {registry : Registry} {sim : Simulator}

theorem registry_of_ofContract (h : ofContract c registry = .ok sim) : sim.registry = registry := by
  obtain ⟨plans, _, h⟩ := Fallible.bind_eq_ok_iff.mp h
  obtain ⟨procedures, _, h⟩ := Fallible.bind_eq_ok_iff.mp h
  exact (Except.ok.inj h) ▸ rfl

/-- The procedures of a simulator are those of the receivers, one at each index. -/
theorem procedures_getElem? (h : ofContract c registry = .ok sim) {i : Nat} {r : Receiver}
    (hr : c.receivers[i]? = some r) :
    ∃ p, sim.procedures[i]? = some p ∧ c.procedure registry i = .ok p := by
  obtain ⟨plans, _, h⟩ := Fallible.bind_eq_ok_iff.mp h
  obtain ⟨procedures, hp, h⟩ := Fallible.bind_eq_ok_iff.mp h
  obtain rfl := Except.ok.inj h
  have hri : c.receivers.zipIdx[i]? = some (r, i) := by simp [hr]
  obtain ⟨p, hpi, hproc⟩ := Fallible.getElem?_of_mapM hp hri
  exact ⟨p, hpi, Fallible.mapError_eq_ok_iff.mp hproc⟩

/-- The plan of a direction is the contract's plan for it. -/
theorem plan_of_plan? (h : ofContract c registry = .ok sim) {d : Direction} {p : Plan}
    (hp : sim.plan? d = some p) : c.plan registry d = .ok p := by
  obtain ⟨plans, hplans, h⟩ := Fallible.bind_eq_ok_iff.mp h
  obtain ⟨procedures, _, h⟩ := Fallible.bind_eq_ok_iff.mp h
  obtain rfl := Except.ok.inj h
  have hmem := List.mem_of_find?_eq_some hp
  have hdir : p.direction = d := by simpa using List.find?_some hp
  obtain ⟨d', _, hd'⟩ := Fallible.exists_of_mem_mapM hplans hmem
  obtain ⟨_, routes, _, rfl⟩ := Contract.plan_eq_ok_iff.mp hd'
  exact (show d' = d from hdir) ▸ hd'

/-- A direction without a plan has no router. -/
theorem hasRouter_of_plan?_eq_none (h : ofContract c registry = .ok sim) {d : Direction}
    (hp : sim.plan? d = none) : c.hasRouter d = false := by
  obtain ⟨plans, hplans, h⟩ := Fallible.bind_eq_ok_iff.mp h
  obtain ⟨procedures, _, h⟩ := Fallible.bind_eq_ok_iff.mp h
  obtain rfl := Except.ok.inj h
  by_contra hrouter
  have hmem : d ∈ Direction.all.filter fun d => true && c.hasRouter d :=
    List.mem_filter.mpr ⟨d.mem_all, by simpa using hrouter⟩
  obtain ⟨i, hi⟩ := List.getElem?_of_mem hmem
  obtain ⟨p, hpi, hplan⟩ := Fallible.getElem?_of_mapM hplans hi
  obtain ⟨_, routes, _, rfl⟩ := Contract.plan_eq_ok_iff.mp hplan
  have hne := List.find?_eq_none.mp hp _ (List.mem_of_getElem? hpi)
  exact hne (beq_self_eq_true d)

/-! ## Structs -/

/-- The struct of a layout at the front of a message. -/
def readLayout (l : Layout) (isPartial : Bool) (s : Slice) : Except Exit Record :=
  match Codec.decode l isPartial s with
  | .ok r _ => .ok r
  | .error e _ => .error (.codec e)

/-- The receiver of a message type gets the struct of that type's layout. -/
theorem readStruct_eq_readLayout (h : ofContract c registry = .ok sim) {hd : Plan.Handler}
    {r : Receiver} {name : String} {l : Layout} (hr : c.receivers[hd.receiver]? = some r)
    (hname : r.selector.message? = some name) (hl : registry.layout name = .ok l)
    (isPartial : Bool) (s : Slice) : sim.readStruct hd isPartial s = readLayout l isPartial s := by
  obtain ⟨p, hp, hproc⟩ := procedures_getElem? h hr
  obtain ⟨function, payload, -, -, -, rfl⟩ := Contract.procedure_of_getElem? hr hproc
  have hlayout : sim.layout? hd = some l := by
    rw [layout?, hp, registry_of_ofContract h]
    show (r.selector.message?.bind fun name => (registry.layout name).toOption) = some l
    rw [hname]
    show (registry.layout name).toOption = some l
    rw [hl]
    rfl
  rw [readStruct, hlayout]
  rfl

end Simulator
end MessageRouter
