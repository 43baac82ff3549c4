import MessageRouter.Proofs.Compilation.Assembly
import MessageRouter.Proofs.Compilation.Names
import MessageRouter.Proofs.Plan.Admission
import MessageRouter.Proofs.Router.Calls
/-!
# `Proofs.Compilation.Linking` — the functions that routers call are there

* `Contract.exists_unshadowed`: the procedures that are written are the first of their names among all of a contract.
* `Contract.shadows_of_function_eq`: only comments of one tag have procedures of one name.
* `Assembly.IsOf.nodup_names`: the functions of a contract have different names.
* `Procedure.Answers`: a procedure takes what a router hands over on a route.
* `Assembly.IsOf.exists_answer`: every receiver that a router calls is written.
* `Program.links`: generated text defines each function once, and every function that a router calls before it.
-/
namespace MessageRouter

namespace Contract

variable {c : Contract} {registry : Registry} {wanted : Direction → Bool} {d : Direction}
  {p q : Procedure}

/-! ## Procedures that are written -/

theorem index_of_procedure {i : Nat} (h : c.procedure registry i = .ok p) : p.index = i := by
  obtain ⟨r, f, payload, -, -, -, -, rfl⟩ := procedure_eq_ok h
  rfl

theorem function_of_plan {plan : Plan} (h : c.plan registry d = .ok plan) :
    plan.function = Func.Name.router c.name d := by
  obtain ⟨-, routes, -, rfl⟩ := plan_eq_ok_iff.mp h
  rfl

/-- The procedures that are written are the first of their names among those of the receivers that are wanted. -/
theorem exists_unshadowed {ps : List Procedure} (h : c.procedures registry wanted = .ok ps) :
    ∃ all, ps = withoutShadowed all ∧ all.Pairwise (fun p q => p.index < q.index) ∧
      (∀ p ∈ all, c.procedure registry p.index = .ok p ∧ wanted p.selector.direction = true) ∧
      ∀ r i, c.receivers[i]? = some r → wanted r.selector.direction = true →
        ∃ p ∈ all, c.procedure registry i = .ok p := by
  obtain ⟨all, hall, h⟩ := Fallible.bind_eq_ok_iff.mp h
  refine ⟨all, (Except.ok.inj h).symm, ?_, ?_, ?_⟩
  · refine pairwise_of_forall₂ (Fallible.mapM_eq_ok_iff.mp hall) (c.pairwise_filter_zipIdx _) ?_
    intro r r' p q hp hq hlt
    rwa [index_of_procedure (Fallible.mapError_eq_ok_iff.mp hp),
      index_of_procedure (Fallible.mapError_eq_ok_iff.mp hq)]
  · intro p hp
    obtain ⟨⟨r, i⟩, hmem, hproc⟩ := Fallible.exists_of_mem_mapM hall hp
    obtain ⟨hzip, hwanted⟩ := List.mem_filter.mp hmem
    replace hproc := Fallible.mapError_eq_ok_iff.mp hproc
    obtain ⟨f, payload, -, -, -, rfl⟩ :=
      procedure_of_getElem? (List.mk_mem_zipIdx_iff_getElem?.mp hzip) hproc
    exact ⟨hproc, hwanted⟩
  · intro r i hr hwanted
    have hmem : (r, i) ∈ c.receivers.zipIdx.filter fun r => wanted r.1.selector.direction :=
      List.mem_filter.mpr ⟨List.mk_mem_zipIdx_iff_getElem?.mpr hr, hwanted⟩
    obtain ⟨n, hn⟩ := List.getElem?_of_mem hmem
    obtain ⟨p, hp, hproc⟩ := Fallible.getElem?_of_mapM hall hn
    exact ⟨p, List.mem_of_getElem? hp, Fallible.mapError_eq_ok_iff.mp hproc⟩

/-- A procedure that none before it shadows is written. -/
theorem mem_withoutShadowed {all : List Procedure} (hall : all.Pairwise fun p q => p.index < q.index)
    (hp : p ∈ all) (hfirst : ∀ q ∈ all, q.shadows p = true → p.index ≤ q.index) :
    p ∈ withoutShadowed all := by
  induction all with
  | nil => exact nomatch hp
  | cons q rest ih =>
    obtain ⟨hq, hrest⟩ := List.pairwise_cons.mp hall
    rcases List.mem_cons.mp hp with rfl | hp
    · exact List.mem_cons_self
    · have hwritten := ih hrest hp fun q' hq' => hfirst q' (List.mem_cons_of_mem _ hq')
      have hshadows : q.shadows p = false := by
        rw [Bool.eq_false_iff]
        intro hshadows
        exact absurd (hq p hp) (Nat.not_lt_of_le (hfirst q List.mem_cons_self hshadows))
      exact List.mem_cons_of_mem _ (List.mem_filter.mpr ⟨hwritten, by simp [hshadows]⟩)

/-! ## Different names -/

/-- Only a comment takes no slot. -/
theorem isComment_of_slot_eq_none {s : Selector} (h : s.slot registry = .ok none) :
    s.isComment = true := by
  cases s with
  | comment => rfl
  | message d name binding | bounced name binding isPartial =>
    obtain ⟨l, -, hl⟩ := Fallible.map_eq_ok_iff.mp h
    exact nomatch hl
  | empty | anyComment | any | anyBounced => exact nomatch h

/-- The direction of a receiver that is wanted was checked for slots. -/
theorem checkSlots_of_plans {plans : List Plan} (h : c.plans registry wanted = .ok plans)
    {r : Receiver × Nat} (hr : r ∈ c.receiversFor d) (hd : wanted d = true) :
    c.checkSlots registry d = .ok () := by
  have hrouter : c.hasRouter d = true := by
    by_contra hnone
    have hempty := (receiversFor_of_hasRouter_eq_false (Bool.eq_false_iff.mpr hnone)).2
    rw [hempty] at hr
    exact nomatch hr
  have hmem : d ∈ Direction.all.filter fun d => wanted d && c.hasRouter d :=
    List.mem_filter.mpr ⟨d.mem_all, by simp [hd, hrouter]⟩
  obtain ⟨n, hn⟩ := List.getElem?_of_mem hmem
  obtain ⟨plan, -, hplan⟩ := Fallible.getElem?_of_mapM h hn
  exact (plan_eq_ok_iff.mp hplan).1

/-- Only comments of one tag have procedures of one name. -/
theorem shadows_of_function_eq (hname : Identifier.IsValid .typeName c.name) {i j : Nat}
    (hp : c.procedure registry i = .ok p) (hq : c.procedure registry j = .ok q)
    (hslots : c.checkSlots registry p.selector.direction = .ok ()) (hne : i ≠ j)
    (h : p.function = q.function) : p.shadows q = true := by
  obtain ⟨r, f, payload, hr, hf, hpayload, -, rfl⟩ := procedure_eq_ok hp
  obtain ⟨r', f', payload', hr', hf', -, -, rfl⟩ := procedure_eq_ok hq
  obtain rfl : f = f' := h
  obtain ⟨hdirection, hslot, hcomment⟩ := eq_of_functionName_eq hname hf hf' registry
  obtain ⟨taking, htaking⟩ := exists_slot_of_payload hpayload
  cases taking with
  | none =>
    have hcomment' := isComment_of_slot_eq_none htaking
    simp [Procedure.shadows, ← hcomment, hcomment']
  | some slot =>
    have heq := eq_of_slot_eq hslots (mem_receiversFor hr rfl) (mem_receiversFor hr' hdirection.symm)
      htaking (hslot.symm.trans htaking)
    exact absurd (Prod.mk.inj heq).2 hne

end Contract

/-! ## Functions of a contract -/

namespace Assembly

variable {a : Assembly} {registry : Registry} {o : Options} {p : Procedure} {plan : Plan}

theorem names_functions (a : Assembly) :
    a.functions.map (·.name) = a.procedures.map (·.function) ++ a.plans.map (·.function) := by
  simp [functions, Func.Function.program, Func.Function.ofProcedure, Func.routerProgram,
    Function.comp_def]

/-- Every function of a receiver is named for its contract and for what it receives. -/
theorem IsOf.exists_isRole (h : a.IsOf registry o) (hregistry : registry.WellFormed)
    (hp : p ∈ a.procedures) :
    ∃ r role, Contract.IsRole r role ∧ p.function = role.name a.contract.name ∧
      '$' ∉ role.rest.toList := by
  obtain ⟨r, i, -, -, hproc⟩ := Contract.exists_procedure_of_mem_procedures h.procedures hp
  obtain ⟨r, f, payload, -, hf, hpayload, -, rfl⟩ := Contract.procedure_eq_ok hproc
  obtain ⟨role, hrole, rfl⟩ := Contract.exists_role_of_functionName hf
  exact ⟨r, role, hrole, rfl,
    hrole.dollar_notMem_rest fun _ => Contract.isValid_message hregistry hpayload⟩

/-- The plans of a contract are for different directions. -/
theorem IsOf.functions_plans (h : a.IsOf registry o) :
    ∃ ds : List Direction, ds.Nodup ∧
      a.plans.map (·.function) = ds.map (Func.Name.router a.contract.name) := by
  have hall : Direction.all.Nodup := by decide
  have hplans := (Fallible.mapM_eq_ok_iff.mp h.plans).imp fun _ _ hplan =>
    (Contract.function_of_plan hplan).symm
  exact ⟨_, hall.filter _, (Fallible.map_eq_map_of_forall₂ hplans).symm⟩

/-- Every function of a contract is named for it and for what it does. -/
theorem IsOf.exists_role (h : a.IsOf registry o) (hregistry : registry.WellFormed) {f : Code.Function}
    (hf : f ∈ a.functions) :
    ∃ role : Func.Name.Role, f.name = role.name a.contract.name ∧ '$' ∉ role.rest.toList := by
  rcases List.mem_append.mp hf with hf | hf
  · obtain ⟨p, hp, rfl⟩ := List.mem_map.mp hf
    obtain ⟨r, role, -, hrole⟩ := h.exists_isRole hregistry hp
    exact ⟨role, hrole⟩
  · obtain ⟨plan, hplan, rfl⟩ := List.mem_map.mp hf
    obtain ⟨ds, -, hfunctions⟩ := h.functions_plans
    have hmem : plan.function ∈ ds.map (Func.Name.router a.contract.name) :=
      hfunctions ▸ List.mem_map_of_mem hplan
    obtain ⟨d, -, hd⟩ := List.mem_map.mp hmem
    refine ⟨.router d, hd.symm, ?_⟩
    cases d <;> decide

/-- The functions of receivers have different names. Two of one name would be of comments, of which the first shadows
the second. -/
theorem IsOf.nodup_procedures (h : a.IsOf registry o) (hc : a.contract.WellFormed) :
    (a.procedures.map (·.function)).Nodup := by
  obtain ⟨all, hall, hindices, hprocedures, -⟩ := Contract.exists_unshadowed h.procedures
  have hsublist : a.procedures.Sublist all := hall ▸ withoutShadowed_sublist all
  have hunshadowed : a.procedures.Pairwise fun p q => p.shadows q = false := by
    rw [hall]
    exact withoutShadowed_pairwise all
  refine List.pairwise_map.mpr ((hunshadowed.and (hindices.sublist hsublist)).imp_of_mem ?_)
  rintro p q hp hq ⟨hshadows, hlt⟩ hsame
  obtain ⟨hproc, hwanted⟩ := hprocedures p (hsublist.subset hp)
  obtain ⟨hproc', -⟩ := hprocedures q (hsublist.subset hq)
  obtain ⟨r, f, payload, hr, -, -, -, hpeq⟩ := Contract.procedure_eq_ok hproc
  have hslots : a.contract.checkSlots registry p.selector.direction = .ok () := by
    refine Contract.checkSlots_of_plans h.plans (Contract.mem_receiversFor hr ?_) hwanted
    rw [hpeq]
  have hshadows' := Contract.shadows_of_function_eq hc.name hproc hproc' hslots (Nat.ne_of_lt hlt) hsame
  exact absurd (hshadows.symm.trans hshadows') Bool.false_ne_true

/-- The functions of routers have different names. -/
theorem IsOf.nodup_plans (h : a.IsOf registry o) (hc : a.contract.WellFormed) :
    (a.plans.map (·.function)).Nodup := by
  have hdollar := Func.Name.dollar_notMem_of_isValid hc.name
  obtain ⟨ds, hds, hfunctions⟩ := h.functions_plans
  rw [hfunctions]
  refine hds.map ?_
  intro d d' hsame
  have hname : (Func.Name.Role.router d).name a.contract.name =
      (Func.Name.Role.router d').name a.contract.name := hsame
  injection (Func.Name.Role.name_inj hdollar hdollar hname).2

/-- No receiver has the function of a router. -/
theorem IsOf.disjoint_functions (h : a.IsOf registry o) (hregistry : registry.WellFormed)
    (hc : a.contract.WellFormed) :
    (a.procedures.map (·.function)).Disjoint (a.plans.map (·.function)) := by
  have hdollar := Func.Name.dollar_notMem_of_isValid hc.name
  obtain ⟨ds, -, hfunctions⟩ := h.functions_plans
  rw [hfunctions]
  intro f hf hf'
  obtain ⟨p, hp, rfl⟩ := List.mem_map.mp hf
  obtain ⟨r, role, hrole, hname, -⟩ := h.exists_isRole hregistry hp
  obtain ⟨d, -, hd⟩ := List.mem_map.mp hf'
  have hsame : role.name a.contract.name = (Func.Name.Role.router d).name a.contract.name :=
    hname.symm.trans hd.symm
  exact hrole.ne_router d (Func.Name.Role.name_inj hdollar hdollar hsame).2

/-- The functions of a contract have different names. -/
theorem IsOf.nodup_names (h : a.IsOf registry o) (hregistry : registry.WellFormed)
    (hc : a.contract.WellFormed) : (a.functions.map (·.name)).Nodup := by
  rw [names_functions]
  exact (h.nodup_procedures hc).append (h.nodup_plans hc) (h.disjoint_functions hregistry hc)

end Assembly

/-! ## Calls -/

/-- What a payload is, as routers know it. -/
def Payload.passed : Payload → Plan.Passed
  | none => .nothing
  | struct _ message _ isPartial _ => .struct message isPartial
  | slice _ => .slice

/-- A procedure takes what a router hands over on a route. -/
structure Procedure.Answers (p : Procedure) (route : Plan.Route) : Prop where
  receiver : p.index = route.handler.receiver
  function : p.function = route.handler.function
  passed : p.payload.passed = route.passed

/-- A procedure has a parameter for the state and one for what it takes besides. -/
theorem Procedure.Answers.length_parameters {p : Procedure} {route : Plan.Route} (h : p.Answers route) :
    (Func.Function.ofProcedure p).program.parameters.length = route.passed.count + 1 := by
  rw [← h.passed]
  obtain ⟨contract, index, selector, function, fields, payload, body, implicitReturn⟩ := p
  cases payload <;> rfl

namespace Contract

variable {c : Contract} {registry : Registry} {d : Direction} {r r' : Receiver} {i j : Nat}
  {route : Plan.Route} {routes : List Plan.Route} {arm arm' : Plan.CommentArm}

/-- A struct of a layout is handed over under the name that the layout was looked up by. -/
theorem passed_ofLayout {name : String} {l : Layout} (hl : registry.layout name = .ok l)
    (binding : String) (isPartial : Bool) :
    (Payload.ofLayout binding l isPartial).passed = .struct name isPartial := by
  rw [Payload.ofLayout, Payload.passed, (Registry.mem_of_layout hl).2]

/-- A receiver gets on its route what its payload is. -/
theorem IsRoute.passed_eq (h : c.IsRoute registry r i route) {payload : Payload}
    (hpayload : Contract.payload registry r.selector = .ok payload) :
    payload.passed = route.passed := by
  replace hpayload := payload_eq_ok_iff.mp hpayload
  cases h with
  | message hs =>
    rw [hs] at hpayload
    cases hpayload with
    | message hl => exact passed_ofLayout hl _ _
  | bounced hs =>
    rw [hs] at hpayload
    cases hpayload with
    | bounced hl => exact passed_ofLayout hl _ _
  | empty hs | comment hs | anyComment hs | any hs | anyBounced hs =>
    rw [hs] at hpayload
    cases hpayload
    rfl

theorem exists_arm_of_isComment (h : c.IsRoute registry r i route)
    (hcomment : r.selector.isComment = true) : ∃ arm, route = .comment arm := by
  cases h with
  | comment => exact ⟨_, rfl⟩
  | message hs | bounced hs | empty hs | anyComment hs | any hs | anyBounced hs =>
    rw [hs] at hcomment
    exact nomatch hcomment

/-- The function of a comment is named by the tag of its arm. -/
theorem IsRoute.function_of_comment (h : c.IsRoute registry r i (.comment arm)) :
    arm.handler.function =
      (Func.Name.Role.receive r.selector.direction (.comment arm.hash)).name c.name := by
  cases h with
  | comment hs ht hf =>
    obtain ⟨tag, htag, hname⟩ := (functionName_eq_ok_iff_of_comment hs).mp hf
    obtain rfl := Except.ok.inj (ht.symm.trans htag)
    rw [hs]
    exact hname

/-- Comments whose functions have one name are of one direction and tag. -/
theorem hash_eq_of_function_eq (hname : Identifier.IsValid .typeName c.name)
    (h : c.IsRoute registry r i (.comment arm)) (h' : c.IsRoute registry r' j (.comment arm'))
    (hsame : arm.handler.function = arm'.handler.function) : arm.hash = arm'.hash := by
  have hdollar := Func.Name.dollar_notMem_of_isValid hname
  rw [h.function_of_comment, h'.function_of_comment] at hsame
  injection (Func.Name.Role.name_inj hdollar hdollar hsame).2 with _ hwhat
  injection hwhat

/-- A procedure that shadows that of a receiver in a plan does not come before it. -/
theorem index_le_of_shadows (hname : Identifier.IsValid .typeName c.name)
    (hroutes : c.routes registry d = .ok routes) (hroute : route ∈ (Plan.ofRoutes c d routes).routes)
    (hr : (r, i) ∈ c.receiversFor d) (hisRoute : c.IsRoute registry r i route) {p q : Procedure}
    (hp : c.procedure registry i = .ok p) (hq : c.procedure registry j = .ok q)
    (h : q.shadows p = true) : i ≤ j := by
  obtain ⟨hget, hdirection⟩ := getElem?_of_mem_receiversFor hr
  obtain ⟨f, payload, hf, -, -, rfl⟩ := procedure_of_getElem? hget hp
  obtain ⟨r', f', payload', hget', hf', -, -, rfl⟩ := procedure_eq_ok hq
  obtain ⟨⟨hcomment', hcomment⟩, rfl⟩ : (r'.selector.isComment = true ∧ r.selector.isComment = true) ∧
      f' = f := by simpa [Procedure.shadows] using h
  obtain ⟨hsameDirection, -, -⟩ := eq_of_functionName_eq hname hf' hf registry
  have hr' : (r', j) ∈ c.receiversFor d := mem_receiversFor hget' (hsameDirection.trans hdirection)
  -- both comments have arms of one tag, of which the plan keeps the first
  obtain ⟨arm, rfl⟩ := exists_arm_of_isComment hisRoute hcomment
  obtain ⟨route', hmem', hisRoute'⟩ := exists_route_of_mem hroutes hr'
  obtain ⟨arm', rfl⟩ := exists_arm_of_isComment hisRoute' hcomment'
  obtain ⟨hreceiver, hfunction⟩ := hisRoute.handler_eq
  obtain ⟨hreceiver', hfunction'⟩ := hisRoute'.handler_eq
  have hsame : arm'.handler.function = arm.handler.function :=
    (Except.ok.inj (hf'.symm.trans hfunction')).symm.trans (Except.ok.inj (hf.symm.trans hfunction))
  have hle := Plan.receiver_le_of_mem_firstOfTag (pairwise_comments hroutes)
    (Plan.mem_firstOfTag_of_mem_routes hroute) (List.mem_filterMap.mpr ⟨_, hmem', rfl⟩)
    (hash_eq_of_function_eq hname hisRoute' hisRoute hsame)
  rw [← hreceiver, ← hreceiver']
  exact hle

end Contract

namespace Assembly

variable {a : Assembly} {registry : Registry} {o : Options} {plan : Plan} {route : Plan.Route}

/-- Every receiver that a router calls is written, and takes what it gets. -/
theorem IsOf.exists_answer (h : a.IsOf registry o) (hc : a.contract.WellFormed) (hplan : plan ∈ a.plans)
    (hroute : route ∈ plan.routes) :
    ∃ p ∈ a.procedures, a.contract.procedure registry route.handler.receiver = .ok p ∧
      p.Answers route := by
  obtain ⟨d, hd, hplan⟩ := Fallible.exists_of_mem_mapM h.plans hplan
  have hwanted : o.wants d = true := by
    have hboth := (List.mem_filter.mp hd).2
    exact (Bool.and_eq_true_iff.mp hboth).1
  obtain ⟨-, routes, hroutes, rfl⟩ := Contract.plan_eq_ok_iff.mp hplan
  obtain ⟨r, i, hr, hisRoute⟩ := Contract.exists_isRoute hroutes (Plan.routes_ofRoutes_subset hroute)
  obtain ⟨hget, hdirection⟩ := Contract.getElem?_of_mem_receiversFor hr
  obtain ⟨all, hall, hindices, hprocedures, hexists⟩ := Contract.exists_unshadowed h.procedures
  obtain ⟨p, hp, hproc⟩ := hexists r i hget (hdirection ▸ hwanted)
  obtain ⟨f, payload, hf, hpayload, -, hpeq⟩ := Contract.procedure_of_getElem? hget hproc
  obtain ⟨hreceiver, hfunction⟩ := hisRoute.handler_eq
  have hfunctions : f = route.handler.function := Except.ok.inj (hf.symm.trans hfunction)
  refine ⟨p, ?_, hreceiver.symm ▸ hproc, ?_⟩
  · rw [hall]
    refine Contract.mem_withoutShadowed hindices hp fun q hq hshadows => ?_
    rw [Contract.index_of_procedure hproc]
    exact Contract.index_le_of_shadows hc.name hroutes hroute hr hisRoute hproc (hprocedures q hq).1 hshadows
  · rw [hpeq]
    exact ⟨hreceiver.symm, hfunctions, hisRoute.passed_eq hpayload⟩

/-- A receiver's function stands before those of the routers of its contract. -/
theorem sublist_functions {p : Procedure} (hp : p ∈ a.procedures) (hplan : plan ∈ a.plans) :
    [(Func.Function.ofProcedure p).program, Func.routerProgram plan].Sublist a.functions := by
  have hfunction : (Func.Function.ofProcedure p).program ∈
      a.procedures.map fun p => (Func.Function.ofProcedure p).program := List.mem_map_of_mem hp
  have hrouter : Func.routerProgram plan ∈ a.plans.map Func.routerProgram := List.mem_map_of_mem hplan
  exact (List.singleton_sublist.mpr hfunction).append (List.singleton_sublist.mpr hrouter)

/-- The functions of contracts of different names have different names. -/
theorem nodup_names_flatMap {as : List Assembly} (hregistry : registry.WellFormed)
    (has : ∀ a ∈ as, a.IsOf registry o ∧ a.contract.WellFormed)
    (hnodup : (as.map (·.contract.name)).Nodup) :
    ((as.flatMap (·.functions)).map (·.name)).Nodup := by
  rw [List.map_flatMap, List.nodup_flatMap]
  refine ⟨fun a ha => (has a ha).1.nodup_names hregistry (has a ha).2, ?_⟩
  refine (List.pairwise_map.mp hnodup).imp_of_mem fun {a b} ha hb hne => ?_
  obtain ⟨hof, hwellFormed⟩ := has a ha
  obtain ⟨hof', hwellFormed'⟩ := has b hb
  intro name hname hname'
  obtain ⟨f, hf, rfl⟩ := List.mem_map.mp hname
  obtain ⟨g, hg, hsame⟩ := List.mem_map.mp hname'
  obtain ⟨role, hrole, -⟩ := hof.exists_role hregistry hf
  obtain ⟨role', hrole', -⟩ := hof'.exists_role hregistry hg
  rw [hrole, hrole'] at hsame
  exact hne (Func.Name.Role.name_inj (Func.Name.dollar_notMem_of_isValid hwellFormed'.name)
    (Func.Name.dollar_notMem_of_isValid hwellFormed.name) hsame).1.symm

end Assembly

/-- Generated text links. It is read as functions, for one contract after the other those of its receivers and then
those of its routers. No two of them have one name, and none has that of a reader. A router calls the receivers on
the routes of its plan; the function of each stands before the router in the same contract, is that of the receiver
that the plan names, and takes what it is called with. Contracts, routers and receivers are counted as they are. -/
theorem Program.links {doc : Json} {prog : Program} (hprog : Program.ofJson doc = .ok prog) {limit : Nat}
    {o : Options} {out : Compiled} (h : prog.compile limit o = .ok out) :
    ∃ as : List Assembly, as.map (·.contract) = prog.contracts ∧ (∀ a ∈ as, a.IsOf prog.registry o) ∧
      Code.functionsOfText? out.text = some (as.flatMap (·.functions)) ∧
      ((as.flatMap (·.functions)).map (·.name)).Nodup ∧
      (∀ f ∈ as.flatMap (·.functions), ∀ message isPartial, f.name ≠ Plan.readerName message isPartial) ∧
      (∀ a ∈ as, ∀ plan ∈ a.plans,
        (Func.routerProgram plan).calls =
          plan.routes.map (fun route => (route.handler.function, route.passed.count)) ∧
        ∀ route ∈ plan.routes, ∃ p ∈ a.procedures,
          a.contract.procedure prog.registry route.handler.receiver = .ok p ∧ p.Answers route ∧
          (Func.Function.ofProcedure p).program.parameters.length = route.passed.count + 1 ∧
          [(Func.Function.ofProcedure p).program, Func.routerProgram plan].Sublist a.functions) ∧
      out.stats.contracts = as.length ∧ out.stats.routers = (as.flatMap (·.plans)).length ∧
      out.stats.receivers = (as.flatMap (·.procedures)).length := by
  have hwellFormed := Program.wellFormed_of_ofJson hprog
  obtain ⟨as, hcontracts, has, hout⟩ := Program.exists_assemblies hwellFormed h
  have hboth : ∀ a ∈ as, a.IsOf prog.registry o ∧ a.contract.WellFormed := fun a ha =>
    ⟨has a ha, hwellFormed.contracts _ (hcontracts ▸ List.mem_map_of_mem ha)⟩
  -- contracts are told by the names of their functions, which begin with theirs
  have hnames : (as.map (·.contract.name)).Nodup := by
    have hnodup := hwellFormed.nodup
    rwa [← hcontracts, List.map_map] at hnodup
  refine ⟨as, hcontracts, has, hout.text.functionsOfText?_eq,
    Assembly.nodup_names_flatMap hwellFormed.registry hboth hnames, ?_, ?_, hout.contracts, hout.routers,
    hout.receivers⟩
  · intro f hf message isPartial
    obtain ⟨a, ha, hf⟩ := List.mem_flatMap.mp hf
    obtain ⟨hof, hc⟩ := hboth a ha
    obtain ⟨role, hname, hrest⟩ := hof.exists_role hwellFormed.registry hf
    rw [hname]
    exact Func.Name.Role.name_ne_readerName (Func.Name.dollar_notMem_of_isValid hc.name) hrest message
      isPartial
  · intro a ha plan hplan
    obtain ⟨hof, hc⟩ := hboth a ha
    refine ⟨Func.calls_routerProgram plan, fun route hroute => ?_⟩
    obtain ⟨p, hp, hproc, hanswers⟩ := hof.exists_answer hc hplan hroute
    exact ⟨p, hp, hproc, hanswers, hanswers.length_parameters, Assembly.sublist_functions hp hplan⟩

/-- The text of the counter is read as its two receivers and its router. -/
theorem Program.links_counter :
    ∃ out fs, (⟨.empty, [.counter]⟩ : Program).compile 10000 {} = .ok out ∧
      Code.functionsOfText? out.text = some fs ∧
      fs.map (·.name) = ["$Counter$_internal_empty", "$Counter$_internal_any",
        "$Counter$_contract_router_internal"] ∧
      out.stats.contracts = 1 ∧ out.stats.routers = 1 ∧ out.stats.receivers = 2 := by
  have hok : ((⟨.empty, [.counter]⟩ : Program).compile 10000 {}).isOk = true := by decide +kernel
  cases hout : (⟨.empty, [.counter]⟩ : Program).compile 10000 {} with
  | error fault =>
    rw [hout] at hok
    exact nomatch hok
  | ok out =>
    obtain ⟨as, hcontracts, has, hread, -, -, -, hcontract, hrouters, hreceivers⟩ :=
      links ofJson_counterDocument hout
    obtain ⟨⟨c, ps, plans⟩, rfl, rfl⟩ := List.map_eq_singleton_iff.mp hcontracts
    have hof := has _ List.mem_cons_self
    have hps : Contract.counter.procedures .empty ({} : Options).wants = .ok ps := hof.procedures
    have hplans : Contract.counter.plans .empty ({} : Options).wants = .ok plans := hof.plans
    obtain rfl := Except.ok.inj (hps.symm.trans rfl)
    obtain rfl := Except.ok.inj (hplans.symm.trans rfl)
    exact ⟨out, _, rfl, hread, by decide +kernel, hcontract, hrouters, hreceivers⟩

end MessageRouter
