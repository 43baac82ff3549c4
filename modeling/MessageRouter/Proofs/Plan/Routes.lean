import MessageRouter.Proofs.Plan.FirstMatch
import MessageRouter.Proofs.Plan.Route
import MessageRouter.Proofs.Plan.Slots
/-!
# `Proofs.Plan.Routes` — the routes of a plan

* `Plan.routes`: the routes of a plan, in the order of its router.
* `Plan.forall_mem_routes`: what holds of all routes, stage by stage.
* `Plan.routes_ofRoutes_subset`, `Plan.mem_firstOfTag_of_mem_routes`: a plan keeps some of the routes that it was
  made of, and of comments of one tag the first.
* `Contract.exists_isRoute`, `Contract.exists_route_of_mem`: every route is that of a receiver of its direction, and
  every receiver has one.
* `Contract.pairwise_routes`: routes stand in the order of their receivers.
-/
namespace MessageRouter
namespace Plan

def BounceStage.routes (s : BounceStage) : List Route :=
  s.arms.map .bounced ++ s.fallback.toList.map .anyBounced

def CommentStage.routes (s : CommentStage) : List Route :=
  s.comments.map .comment ++ s.fallback.toList.map .anyComment

/-- The routes of a plan, in the order of its router. -/
def routes (p : Plan) : List Route :=
  p.bounced.toList.flatMap BounceStage.routes ++ p.opcodes.map .opcode ++
    p.comments.toList.flatMap CommentStage.routes ++ p.fallback.toList.map .any

/-! ## Stages -/

section Stages

variable {P : Route → Prop}

theorem BounceStage.forall_mem_routes {s : BounceStage} :
    (∀ route ∈ s.routes, P route) ↔
      (∀ arm ∈ s.arms, P (.bounced arm)) ∧ ∀ hd, s.fallback = some hd → P (.anyBounced hd) := by
  rw [routes, List.forall_mem_append, List.forall_mem_map, List.forall_mem_map]
  simp only [Option.mem_toList]

theorem CommentStage.forall_mem_routes {s : CommentStage} :
    (∀ route ∈ s.routes, P route) ↔
      (∀ arm ∈ s.comments, P (.comment arm)) ∧ ∀ hd, s.fallback = some hd → P (.anyComment hd) := by
  rw [routes, List.forall_mem_append, List.forall_mem_map, List.forall_mem_map]
  simp only [Option.mem_toList]

/-- What holds of all routes of a plan, stage by stage. -/
theorem forall_mem_routes {p : Plan} :
    (∀ route ∈ p.routes, P route) ↔
      (∀ stage, p.bounced = some stage →
        (∀ arm ∈ stage.arms, P (.bounced arm)) ∧ ∀ hd, stage.fallback = some hd → P (.anyBounced hd)) ∧
      (∀ arm ∈ p.opcodes, P (.opcode arm)) ∧
      (∀ stage, p.comments = some stage →
        (∀ arm ∈ stage.comments, P (.comment arm)) ∧
          ∀ hd, stage.fallback = some hd → P (.anyComment hd)) ∧
      ∀ hd, p.fallback = some hd → P (.any hd) := by
  rw [routes, List.forall_mem_append, List.forall_mem_append, List.forall_mem_append,
    List.forall_mem_map, List.forall_mem_map, List.forall_mem_flatMap, List.forall_mem_flatMap]
  simp only [BounceStage.forall_mem_routes, CommentStage.forall_mem_routes, Option.mem_toList, and_assoc]

end Stages

/-! ## Routes that are kept -/

section Kept

variable {c : Contract} {d : Direction} {routes : List Route}

theorem eq_of_commentStage_eq_some {comments : List CommentArm} {fallback : Option Handler}
    {stage : CommentStage} (h : commentStage comments fallback = some stage) :
    stage = ⟨comments, fallback⟩ := by
  unfold commentStage at h
  split at h
  · exact nomatch h
  · exact (Option.some.inj h).symm

/-- Of comments of one tag a plan keeps the first. -/
theorem mem_firstOfTag_of_mem_routes {arm : CommentArm} (h : .comment arm ∈ (ofRoutes c d routes).routes) :
    arm ∈ firstOfTag (routes.filterMap Route.comment?) := by
  have hstage : ∃ stage, (ofRoutes c d routes).comments = some stage ∧ arm ∈ stage.comments := by
    simpa [Plan.routes, BounceStage.routes, CommentStage.routes] using h
  obtain ⟨stage, hsome, harm⟩ := hstage
  rwa [eq_of_commentStage_eq_some hsome] at harm

/-- Of comments of one tag, the one that is left has the least index. -/
theorem receiver_le_of_mem_firstOfTag {arms : List CommentArm}
    (harms : arms.Pairwise fun a b => a.handler.receiver < b.handler.receiver) {arm other : CommentArm}
    (harm : arm ∈ firstOfTag arms) (hother : other ∈ arms) (hhash : other.hash = arm.hash) :
    arm.handler.receiver ≤ other.handler.receiver := by
  induction arms with
  | nil => exact nomatch hother
  | cons first rest ih =>
    obtain ⟨hfirst, hrest⟩ := List.pairwise_cons.mp harms
    rcases List.mem_cons.mp harm with rfl | harm
    · rcases List.mem_cons.mp hother with rfl | hother
      · exact Nat.le_refl _
      · exact Nat.le_of_lt (hfirst other hother)
    · obtain ⟨harm, hne⟩ := List.mem_filter.mp harm
      rcases List.mem_cons.mp hother with rfl | hother
      · exact absurd hhash.symm (by simpa using hne)
      · exact ih hrest harm hother

/-- A plan keeps some of the routes that it was made of. -/
theorem routes_ofRoutes_subset : (ofRoutes c d routes).routes ⊆ routes := by
  have harms {α : Type} {select : Route → Option α} {make : α → Route}
      (hselect : ∀ route arm, select route = some arm → route = make arm) :
      ∀ arm ∈ routes.filterMap select, make arm ∈ routes := by
    intro arm harm
    obtain ⟨route, hroute, hselected⟩ := List.mem_filterMap.mp harm
    exact hselect route arm hselected ▸ hroute
  have hhandler {select : Route → Option Handler} {make : Handler → Route}
      (hselect : ∀ route handler, select route = some handler → route = make handler) :
      ∀ handler, routes.findSome? select = some handler → make handler ∈ routes := by
    intro handler hfind
    obtain ⟨route, hroute, hselected⟩ := List.exists_of_findSome?_eq_some hfind
    exact hselect route handler hselected ▸ hroute
  refine forall_mem_routes.mpr ⟨?_, harms @Route.eq_of_opcode?, ?_, hhandler @Route.eq_of_any?⟩
  · intro stage hstage
    cases d with
    | external => exact nomatch hstage
    | internal =>
      obtain rfl := Option.some.inj hstage
      exact ⟨harms @Route.eq_of_bounced?, hhandler @Route.eq_of_anyBounced?⟩
  · intro stage hstage
    obtain rfl := eq_of_commentStage_eq_some hstage
    refine ⟨?_, hhandler @Route.eq_of_anyComment?⟩
    intro arm harm
    exact harms @Route.eq_of_comment? arm (firstOfTag_subset _ harm)

end Kept
end Plan

/-! ## Receivers -/

namespace Contract

variable {c : Contract} {registry : Registry} {d : Direction} {routes : List Plan.Route}

/-- Every route is that of a receiver of its direction. -/
theorem exists_isRoute (hroutes : c.routes registry d = .ok routes) {route : Plan.Route}
    (h : route ∈ routes) : ∃ r i, (r, i) ∈ c.receiversFor d ∧ c.IsRoute registry r i route := by
  obtain ⟨⟨r, i⟩, hr, hok⟩ := Fallible.exists_of_mem_mapM hroutes h
  exact ⟨r, i, hr, isRoute_of_route_eq_ok (Fallible.mapError_eq_ok_iff.mp hok)⟩

/-- Every receiver of a direction has a route. -/
theorem exists_route_of_mem (hroutes : c.routes registry d = .ok routes) {r : Receiver} {i : Nat}
    (hr : (r, i) ∈ c.receiversFor d) : ∃ route ∈ routes, c.IsRoute registry r i route := by
  obtain ⟨n, hn⟩ := List.getElem?_of_mem hr
  obtain ⟨route, hroute, hok⟩ := Fallible.getElem?_of_mapM hroutes hn
  exact ⟨route, List.mem_of_getElem? hroute,
    isRoute_of_route_eq_ok (Fallible.mapError_eq_ok_iff.mp hok)⟩

/-- The routes of a direction stand in the order of their receivers. -/
theorem pairwise_routes (hroutes : c.routes registry d = .ok routes) :
    routes.Pairwise fun a b => a.handler.receiver < b.handler.receiver := by
  refine pairwise_of_forall₂ (forall₂_of_routes_eq_ok hroutes) (c.receiversFor_pairwise d) ?_
  rintro r r' route route' ⟨-, h⟩ ⟨-, h'⟩ hlt
  rwa [h.handler_eq.1, h'.handler_eq.1]

/-- The arms of comments stand in the order of their receivers. -/
theorem pairwise_comments (hroutes : c.routes registry d = .ok routes) :
    (routes.filterMap Plan.Route.comment?).Pairwise
      fun a b => a.handler.receiver < b.handler.receiver := by
  rw [List.pairwise_filterMap]
  refine (pairwise_routes hroutes).imp fun {a b} hlt arm harm arm' harm' => ?_
  rw [Plan.Route.eq_of_comment? harm, Plan.Route.eq_of_comment? harm'] at hlt
  exact hlt

end Contract
end MessageRouter
