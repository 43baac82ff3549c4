import Mathlib.Data.List.Nodup
import MessageRouter.Proofs.Plan.Routes
/-!
# `Proofs.Plan.Inventory` — a plan loses no receiver and has none twice

* `Plan.Stage`, `Selector.stage`: where the receivers of a selector are called.
* `Plan.receiversAt`: the receivers that a plan calls at a stage.
* `Contract.IsRepeated`: a comment that a receiver before has already.
* `Contract.eq_of_slot?_eq`: of the routes of a direction, one takes a slot, so that no stage of one receiver is
  taken twice.
* `Contract.mem_receiversAt_iff`: the receivers at a stage are those of its kind, without repeated comments.
* `Contract.plan_keeps_receivers`: so a plan calls every receiver of its direction at one place, and no other.
-/
namespace MessageRouter

/-! ## Stages -/

namespace Plan

/-- The places of a plan at which receivers are called. -/
inductive Stage where
  | opcode
  | comment
  | anyComment
  | any
  | bounced
  | anyBounced
  deriving DecidableEq, Repr

/-- The receivers that a plan calls at a stage, in its order. -/
def receiversAt (p : Plan) : Stage → List Nat
  | .opcode => p.opcodes.map (·.handler.receiver)
  | .comment => p.comments.toList.flatMap fun stage => stage.comments.map (·.handler.receiver)
  | .anyComment => p.comments.toList.flatMap fun stage => stage.fallback.toList.map (·.receiver)
  | .any => p.fallback.toList.map (·.receiver)
  | .bounced => p.bounced.toList.flatMap fun stage => stage.arms.map (·.handler.receiver)
  | .anyBounced => p.bounced.toList.flatMap fun stage => stage.fallback.toList.map (·.receiver)

/-- The number of the opcode that an arm is for, if it is not for the empty message. -/
def OpcodeArm.value? : OpcodeArm → Option UInt32
  | .message _ header _ _ => some header.value
  | .empty _ => none

namespace Route

/-- The stage of a route. -/
def stage : Route → Stage
  | opcode _ => .opcode
  | comment _ => .comment
  | anyComment _ => .anyComment
  | any _ => .any
  | bounced _ => .bounced
  | anyBounced _ => .anyBounced

/-- The slot that the receiver of a route takes. -/
def slot? : Route → Option Slot
  | opcode (.message _ header _ _) => some (.opcode false header.value)
  | opcode (.empty _) => some .empty
  | comment _ => none
  | anyComment _ => some .anyComment
  | any _ => some .any
  | bounced arm => some (.opcode true arm.header.value)
  | anyBounced _ => some .anyBounced

end Route

/-- The receivers at a stage are those of the plan's routes of the stage. -/
theorem receiversAt_eq (p : Plan) (stage : Stage) :
    p.receiversAt stage = (p.routes.filter (·.stage = stage)).map (·.handler.receiver) := by
  obtain ⟨contract, direction, function, stateFields, bounced, opcodes, comments, fallback⟩ := p
  cases stage <;> cases bounced <;> cases comments <;>
    simp [receiversAt, routes, BounceStage.routes, CommentStage.routes, List.filter_map,
      Function.comp_def, Route.stage, Route.handler]

/-- A route is that of one of the receivers at its stage. -/
theorem mem_receiversAt_iff {p : Plan} {stage : Stage} {i : Nat} :
    i ∈ p.receiversAt stage ↔
      ∃ route ∈ p.routes, route.stage = stage ∧ route.handler.receiver = i := by
  simp [receiversAt_eq, and_assoc]

end Plan

/-- Where the receivers of a selector are called. -/
def Selector.stage : Selector → Plan.Stage
  | .message .. | .empty _ => .opcode
  | .comment .. => .comment
  | .anyComment .. => .anyComment
  | .any .. => .any
  | .bounced .. => .bounced
  | .anyBounced _ => .anyBounced

namespace Contract

variable {c : Contract} {registry : Registry} {d : Direction} {r : Receiver} {i : Nat}
  {route : Plan.Route} {routes : List Plan.Route} {stage : Plan.Stage} {p : Plan}

/-- The receiver at an index is for a comment of a tag. -/
def IsCommentOf (c : Contract) (d : Direction) (i : Nat) (tag : String) : Prop :=
  ∃ r text, c.receivers[i]? = some r ∧ r.selector = .comment d text ∧ Comment.tag text r.loc = .ok tag

/-- The receiver at an index is for a comment that a receiver before it is for already. -/
def IsRepeated (c : Contract) (d : Direction) (i : Nat) : Prop :=
  ∃ tag, c.IsCommentOf d i tag ∧ ∃ j < i, c.IsCommentOf d j tag

/-! ## Routes of receivers -/

/-- A receiver is called at the stage of its selector. -/
theorem IsRoute.stage_eq (h : c.IsRoute registry r i route) : route.stage = r.selector.stage := by
  cases h with
  | message hs | empty hs | comment hs | anyComment hs | any hs | bounced hs | anyBounced hs =>
    rw [hs]
    rfl

/-- A route takes the slot of its receiver. -/
theorem IsRoute.slot_eq (h : c.IsRoute registry r i route) :
    r.selector.slot registry = .ok route.slot? := by
  cases h with
  | message hs hl | bounced hs hl =>
    rw [hs, Selector.slot, hl]
    rfl
  | empty hs | comment hs | anyComment hs | any hs | anyBounced hs =>
    rw [hs]
    rfl

/-- No two routes of a direction take the same slot. -/
theorem pairwise_slot? (hslots : c.checkSlots registry d = .ok ())
    (hroutes : c.routes registry d = .ok routes) :
    routes.Pairwise fun a b => ∀ slot, a.slot? = some slot → b.slot? ≠ some slot := by
  refine pairwise_of_forall₂ (forall₂_of_routes_eq_ok hroutes) (pairwise_of_checkSlots hslots) ?_
  rintro r r' route route' ⟨-, h⟩ ⟨-, h'⟩ hapart slot hroute hroute'
  apply hapart slot
  · rw [h.slot_eq, hroute]
  · rw [h'.slot_eq, hroute']

/-- Of the routes of a direction, one takes a slot. -/
theorem eq_of_slot?_eq (hslots : c.checkSlots registry d = .ok ())
    (hroutes : c.routes registry d = .ok routes) {a b : Plan.Route} (ha : a ∈ routes) (hb : b ∈ routes)
    {slot : Slot} (hslot : a.slot? = some slot) (hslot' : b.slot? = some slot) : a = b := by
  by_contra hne
  have : Std.Symm fun a b : Plan.Route => ∀ slot, a.slot? = some slot → b.slot? ≠ some slot :=
    ⟨fun a b hab slot hb ha => hab slot ha hb⟩
  exact (pairwise_slot? hslots hroutes).forall ha hb hne slot hslot hslot'

/-- A comment's receiver has the tag of its arm, and no other tag. -/
theorem isCommentOf_iff (hr : (r, i) ∈ c.receiversFor d) {arm : Plan.CommentArm}
    (h : c.IsRoute registry r i (.comment arm)) {tag : String} :
    c.IsCommentOf d i tag ↔ tag = arm.hash := by
  obtain ⟨hget, hdirection⟩ := getElem?_of_mem_receiversFor hr
  cases h with
  | @comment d' text tag' f hs ht hf =>
    obtain rfl : d' = d := by rwa [hs] at hdirection
    constructor
    · rintro ⟨r', text', hget', hs', ht'⟩
      obtain rfl := Option.some.inj (hget.symm.trans hget')
      obtain ⟨-, rfl⟩ := Selector.comment.inj (hs.symm.trans hs')
      exact Except.ok.inj (ht'.symm.trans ht)
    · rintro rfl
      exact ⟨r, text, hget, hs, ht⟩

theorem exists_arm_of_stage_eq (h : route.stage = .comment) : ∃ arm, route = .comment arm := by
  cases route with
  | comment arm => exact ⟨arm, rfl⟩
  | opcode | anyComment | any | bounced | anyBounced => exact nomatch h

/-- A receiver for a comment of a tag has an arm of the tag. -/
theorem IsCommentOf.exists_arm (hroutes : c.routes registry d = .ok routes) {tag : String}
    (h : c.IsCommentOf d i tag) :
    ∃ arm ∈ routes.filterMap Plan.Route.comment?, arm.handler.receiver = i ∧ arm.hash = tag := by
  obtain ⟨r, text, hget, hs, ht⟩ := h
  have hr : (r, i) ∈ c.receiversFor d := mem_receiversFor hget (by rw [hs]; rfl)
  obtain ⟨route, hroute, hisRoute⟩ := exists_route_of_mem hroutes hr
  cases hisRoute with
  | @comment d' text' tag' f hs' ht' hf =>
    obtain ⟨-, rfl⟩ := Selector.comment.inj (hs.symm.trans hs')
    obtain rfl := Except.ok.inj (ht.symm.trans ht')
    exact ⟨_, List.mem_filterMap.mpr ⟨_, hroute, rfl⟩, rfl, rfl⟩
  | message hs' | empty hs' | anyComment hs' | any hs' | bounced hs' | anyBounced hs' =>
    exact nomatch hs.symm.trans hs'

end Contract

/-! ## Routes that are kept -/

namespace Plan

variable {c : Contract} {d : Direction} {routes : List Route}

theorem firstOfTag_sublist (arms : List CommentArm) : (firstOfTag arms).Sublist arms := by
  induction arms with
  | nil => exact List.Sublist.refl []
  | cons arm rest ih => exact (List.filter_sublist.trans ih).cons_cons arm

theorem firstOfTag_eq_nil_iff {arms : List CommentArm} : firstOfTag arms = [] ↔ arms = [] := by
  cases arms <;> simp [firstOfTag]

/-- A comment that no other of its tag stands before is kept. -/
theorem mem_firstOfTag {arms : List CommentArm}
    (harms : arms.Pairwise fun a b => a.handler.receiver < b.handler.receiver) {arm : CommentArm}
    (harm : arm ∈ arms)
    (hfirst : ∀ other ∈ arms, other.hash = arm.hash → arm.handler.receiver ≤ other.handler.receiver) :
    arm ∈ firstOfTag arms := by
  induction arms with
  | nil => exact nomatch harm
  | cons first rest ih =>
    obtain ⟨hlt, hrest⟩ := List.pairwise_cons.mp harms
    rcases List.mem_cons.mp harm with rfl | harm
    · exact List.mem_cons_self
    · obtain ⟨hself, hothers⟩ := List.forall_mem_cons.mp hfirst
      have hkept := ih hrest harm hothers
      have hne : arm.hash ≠ first.hash := by
        intro hsame
        have hle := hself hsame.symm
        have hless := hlt arm harm
        omega
      exact List.mem_cons_of_mem _ (List.mem_filter.mpr ⟨hkept, by simpa using hne⟩)

/-- The stage of comments is there exactly if there is something in it. -/
theorem commentStage_eq_none_iff {comments : List CommentArm} {fallback : Option Handler} :
    commentStage comments fallback = none ↔ comments = [] ∧ fallback = none := by
  simp [commentStage]

theorem toList_commentStage (comments : List CommentArm) (fallback : Option Handler) :
    (commentStage comments fallback).toList.flatMap CommentStage.routes =
      comments.map .comment ++ fallback.toList.map .anyComment := by
  unfold commentStage
  by_cases h : comments.isEmpty && fallback.isNone
  · rw [if_pos h]
    simp_all
  · rw [if_neg h]
    simp [CommentStage.routes]

end Plan

namespace Contract

variable {c : Contract} {registry : Registry} {d : Direction} {r : Receiver} {i : Nat}
  {route : Plan.Route} {routes : List Plan.Route} {stage : Plan.Stage} {p : Plan}

/-- A route that takes a slot is found among the routes of its direction. -/
theorem findSome?_eq_of_slot? (hslots : c.checkSlots registry d = .ok ())
    (hroutes : c.routes registry d = .ok routes) (h : route ∈ routes) {slot : Slot}
    (hslot : route.slot? = some slot) {select : Plan.Route → Option Plan.Handler} {hd : Plan.Handler}
    (hselect : select route = some hd) (hall : ∀ z w, select z = some w → z.slot? = some slot) :
    routes.findSome? select = some hd := by
  refine findSome?_eq_some_of_unique h hselect fun z hz w hw => ?_
  have hsame := eq_of_slot?_eq hslots hroutes hz h (hall z w hw) hslot
  rw [hsame, hselect] at hw
  exact (Option.some.inj hw).symm

/-- Only internal messages bounce. -/
theorem direction_of_isBounce (hr : (r, i) ∈ c.receiversFor d) (hbounce : r.selector.isBounce = true) :
    d = .internal := by
  rw [← (getElem?_of_mem_receiversFor hr).2]
  exact Selector.direction_of_isBounce hbounce

/-- A plan has the routes of all receivers of its direction, and of comments of one tag the first. -/
theorem mem_routes_ofRoutes (hslots : c.checkSlots registry d = .ok ())
    (hroutes : c.routes registry d = .ok routes) (h : route ∈ routes)
    (hfirst : ∀ arm, route = .comment arm → arm ∈ Plan.firstOfTag (routes.filterMap Plan.Route.comment?)) :
    route ∈ (Plan.ofRoutes c d routes).routes := by
  obtain ⟨r, i, hr, hisRoute⟩ := exists_isRoute hroutes h
  -- plans of external messages have no stage of bounces, and need none
  have hinternal (hbounce : r.selector.isBounce = true) : d = .internal := direction_of_isBounce hr hbounce
  have hcomments : (Plan.ofRoutes c d routes).comments.toList.flatMap Plan.CommentStage.routes = _ :=
    Plan.toList_commentStage _ _
  rw [Plan.routes, hcomments]
  simp only [Plan.ofRoutes, List.mem_append]
  cases hisRoute with
  | message hs hl hf | empty hs hf =>
    refine .inl (.inl (.inr ?_))
    exact List.mem_map.mpr ⟨_, List.mem_filterMap.mpr ⟨_, h, rfl⟩, rfl⟩
  | comment hs ht hf => exact .inl (.inr (.inl (List.mem_map.mpr ⟨_, hfirst _ rfl, rfl⟩)))
  | anyComment hs hf =>
    -- the search for it finds no other one, as no two routes take one slot
    have hfind : routes.findSome? Plan.Route.anyComment? = some _ :=
      findSome?_eq_of_slot? hslots hroutes h rfl rfl fun z w hw => by
        rw [Plan.Route.eq_of_anyComment? hw]
        rfl
    rw [hfind]
    exact .inl (.inr (.inr List.mem_cons_self))
  | any hs hf =>
    have hfind : routes.findSome? Plan.Route.any? = some _ :=
      findSome?_eq_of_slot? hslots hroutes h rfl rfl fun z w hw => by
        rw [Plan.Route.eq_of_any? hw]
        rfl
    rw [hfind]
    exact .inr List.mem_cons_self
  | bounced hs hl hf =>
    obtain rfl := hinternal (by rw [hs]; rfl)
    refine .inl (.inl (.inl ?_))
    simp only [Option.toList_some, List.flatMap_singleton, Plan.BounceStage.routes, List.mem_append]
    exact .inl (List.mem_map.mpr ⟨_, List.mem_filterMap.mpr ⟨_, h, rfl⟩, rfl⟩)
  | anyBounced hs hf =>
    obtain rfl := hinternal (by rw [hs]; rfl)
    have hfind : routes.findSome? Plan.Route.anyBounced? = some _ :=
      findSome?_eq_of_slot? hslots hroutes h rfl rfl fun z w hw => by
        rw [Plan.Route.eq_of_anyBounced? hw]
        rfl
    refine .inl (.inl (.inl ?_))
    simp only [hfind, Option.toList_some, List.flatMap_singleton, Plan.BounceStage.routes,
      List.mem_append]
    exact .inr List.mem_cons_self

/-- The receivers at a stage are those of its kind, without those of comments that were there before. -/
theorem mem_receiversAt_iff (hslots : c.checkSlots registry d = .ok ())
    (hroutes : c.routes registry d = .ok routes) :
    i ∈ (Plan.ofRoutes c d routes).receiversAt stage ↔
      ∃ r, c.receivers[i]? = some r ∧ r.selector.direction = d ∧ r.selector.stage = stage ∧
        ¬c.IsRepeated d i := by
  rw [Plan.mem_receiversAt_iff]
  constructor
  · rintro ⟨route, hkept, rfl, rfl⟩
    obtain ⟨r, i, hr, hisRoute⟩ := exists_isRoute hroutes (Plan.routes_ofRoutes_subset hkept)
    obtain ⟨hget, hdirection⟩ := getElem?_of_mem_receiversFor hr
    rw [hisRoute.handler_eq.1]
    refine ⟨r, hget, hdirection, hisRoute.stage_eq.symm, ?_⟩
    rintro ⟨tag, hcomment, j, hlt, hbefore⟩
    -- the arm that is kept would be that of the receiver before
    obtain ⟨r', text, hget', hs, -⟩ := id hcomment
    obtain rfl := Option.some.inj (hget.symm.trans hget')
    obtain ⟨arm, rfl⟩ := exists_arm_of_stage_eq (by rw [hisRoute.stage_eq, hs]; rfl)
    obtain rfl := (isCommentOf_iff hr hisRoute).mp hcomment
    obtain ⟨other, hother, rfl, hhash⟩ := hbefore.exists_arm hroutes
    have hle := Plan.receiver_le_of_mem_firstOfTag (pairwise_comments hroutes)
      (Plan.mem_firstOfTag_of_mem_routes hkept) hother hhash
    rw [← hisRoute.handler_eq.1] at hlt
    exact absurd hle (Nat.not_le_of_lt hlt)
  · rintro ⟨r, hget, hdirection, rfl, hnot⟩
    have hr := mem_receiversFor hget hdirection
    obtain ⟨route, hroute, hisRoute⟩ := exists_route_of_mem hroutes hr
    refine ⟨route, mem_routes_ofRoutes hslots hroutes hroute ?_, hisRoute.stage_eq, hisRoute.handler_eq.1⟩
    rintro arm rfl
    refine Plan.mem_firstOfTag (pairwise_comments hroutes) (List.mem_filterMap.mpr ⟨_, hroute, rfl⟩) ?_
    intro other hother hhash
    by_contra hlt
    obtain ⟨route', hroute', hselect⟩ := List.mem_filterMap.mp hother
    obtain rfl := Plan.Route.eq_of_comment? hselect
    obtain ⟨r', j, hr', hisRoute'⟩ := exists_isRoute hroutes hroute'
    have hj : other.handler.receiver = j := hisRoute'.handler_eq.1
    have hi : arm.handler.receiver = i := hisRoute.handler_eq.1
    refine hnot ⟨arm.hash, (isCommentOf_iff hr hisRoute).mpr rfl, j, by omega, ?_⟩
    exact (isCommentOf_iff hr' hisRoute').mpr hhash.symm

/-! ## The order of receivers -/

/-- What is selected of the routes stands in the order of their receivers. -/
theorem pairwise_map_filterMap (hroutes : c.routes registry d = .ok routes) {α : Type}
    {select : Plan.Route → Option α} {receiver : α → Nat}
    (hselect : ∀ route a, select route = some a → route.handler.receiver = receiver a) :
    ((routes.filterMap select).map receiver).Pairwise (· < ·) := by
  rw [List.pairwise_map, List.pairwise_filterMap]
  refine (pairwise_routes hroutes).imp ?_
  intro route route' hlt a ha a' ha'
  rwa [← hselect route a ha, ← hselect route' a' ha']

/-- The receivers at a stage stand in the order of their indices. -/
theorem pairwise_receiversAt (hroutes : c.routes registry d = .ok routes) (stage : Plan.Stage) :
    ((Plan.ofRoutes c d routes).receiversAt stage).Pairwise (· < ·) := by
  have hone {hd : Option Plan.Handler} : (hd.toList.map (·.receiver)).Pairwise (· < ·) := by
    cases hd <;> simp
  cases stage with
  | opcode =>
    refine pairwise_map_filterMap hroutes fun route arm h => ?_
    rw [Plan.Route.eq_of_opcode? h]
    rfl
  | comment =>
    rw [Plan.receiversAt]
    cases hstage : (Plan.ofRoutes c d routes).comments with
    | none => exact .nil
    | some stage =>
      -- later arms of a tag are left out, which keeps the others in order
      rw [Plan.eq_of_commentStage_eq_some hstage]
      simp only [Option.toList_some, List.flatMap_singleton, List.pairwise_map]
      exact (pairwise_comments hroutes).sublist (Plan.firstOfTag_sublist _)
  | anyComment =>
    rw [Plan.receiversAt]
    cases (Plan.ofRoutes c d routes).comments with
    | none => exact .nil
    | some stage => simpa only [Option.toList_some, List.flatMap_singleton] using hone
  | any => exact hone
  | bounced =>
    cases d with
    | external => exact .nil
    | internal =>
      simp only [Plan.receiversAt, Plan.ofRoutes, Option.toList_some, List.flatMap_singleton]
      refine pairwise_map_filterMap hroutes fun route arm h => ?_
      rw [Plan.Route.eq_of_bounced? h]
      rfl
  | anyBounced =>
    cases d with
    | external => exact .nil
    | internal =>
      simp only [Plan.receiversAt, Plan.ofRoutes, Option.toList_some, List.flatMap_singleton]
      exact hone

/-! ## Different opcodes -/

/-- What is selected of the routes by their slots is never the same. -/
theorem nodup_filterMap_of_slot? (isBounce : Bool) (hslots : c.checkSlots registry d = .ok ())
    (hroutes : c.routes registry d = .ok routes) {value? : Plan.Route → Option UInt32}
    (hvalue : ∀ route v, value? route = some v → route.slot? = some (.opcode isBounce v)) :
    (routes.filterMap value?).Nodup := by
  rw [List.Nodup, List.pairwise_filterMap]
  refine (pairwise_slot? hslots hroutes).imp ?_
  rintro route route' hapart v hv v' hv' rfl
  exact hapart _ (hvalue route v hv) (hvalue route' v hv')

theorem nodup_opcodes (hslots : c.checkSlots registry d = .ok ())
    (hroutes : c.routes registry d = .ok routes) :
    ((Plan.ofRoutes c d routes).opcodes.filterMap Plan.OpcodeArm.value?).Nodup := by
  simp only [Plan.ofRoutes, List.filterMap_filterMap]
  refine nodup_filterMap_of_slot? false hslots hroutes ?_
  intro route v h
  obtain ⟨arm, harm, hv⟩ := Option.bind_eq_some_iff.mp h
  rw [Plan.Route.eq_of_opcode? harm]
  cases arm with
  | message name header reader handler => exact congrArg (Option.map (Slot.opcode false)) hv
  | empty handler => exact nomatch hv

theorem nodup_bounces (hslots : c.checkSlots registry d = .ok ())
    (hroutes : c.routes registry d = .ok routes) :
    ((routes.filterMap Plan.Route.bounced?).map (·.header.value)).Nodup := by
  rw [List.map_filterMap]
  refine nodup_filterMap_of_slot? true hslots hroutes ?_
  intro route v h
  obtain ⟨arm, harm, rfl⟩ := Option.map_eq_some_iff.mp h
  rw [Plan.Route.eq_of_bounced? harm]
  rfl

/-! ## Stages that are there -/

/-- There are routes of a stage exactly if there are receivers of its kind. -/
theorem exists_stage_iff (hroutes : c.routes registry d = .ok routes) (P : Plan.Stage → Prop) :
    (∃ route ∈ routes, P route.stage) ↔
      ∃ r ∈ c.receivers, r.selector.direction = d ∧ P r.selector.stage := by
  constructor
  · rintro ⟨route, hroute, h⟩
    obtain ⟨r, i, hr, hisRoute⟩ := exists_isRoute hroutes hroute
    obtain ⟨hget, hdirection⟩ := getElem?_of_mem_receiversFor hr
    exact ⟨r, List.mem_of_getElem? hget, hdirection, hisRoute.stage_eq ▸ h⟩
  · rintro ⟨r, hmem, hdirection, h⟩
    obtain ⟨i, hget⟩ := List.getElem?_of_mem hmem
    obtain ⟨route, hroute, hisRoute⟩ := exists_route_of_mem hroutes (mem_receiversFor hget hdirection)
    exact ⟨route, hroute, hisRoute.stage_eq.symm ▸ h⟩

/-- The marker is skipped exactly if there is a receiver of bounces. -/
theorem skipsMarker_iff (hroutes : c.routes registry .internal = .ok routes) :
    (Plan.BounceStage.mk (routes.filterMap Plan.Route.bounced?)
        (routes.findSome? Plan.Route.anyBounced?)).skipsMarker = true ↔
      ∃ r ∈ c.receivers, r.selector.isBounce = true := by
  have hstage (route : Plan.Route) : (route.bounced?.isSome || route.anyBounced?.isSome) = true ↔
      route.stage = .bounced ∨ route.stage = .anyBounced := by
    cases route <;> simp [Plan.Route.bounced?, Plan.Route.anyBounced?, Plan.Route.stage]
  have hselector (s : Selector) : s.isBounce = true ↔
      s.direction = .internal ∧ (s.stage = .bounced ∨ s.stage = .anyBounced) := by
    cases s <;> simp [Selector.isBounce, Selector.direction, Selector.stage]
  rw [Plan.skipsMarker_eq_any, List.any_eq_true]
  simp only [hstage, hselector]
  exact exists_stage_iff hroutes fun stage => stage = .bounced ∨ stage = .anyBounced

/-- The stage of comments is there exactly if there is a receiver for one or for any comment. -/
theorem isSome_comments_iff (hroutes : c.routes registry d = .ok routes) :
    (Plan.ofRoutes c d routes).comments.isSome = true ↔
      ∃ r ∈ c.receivers, r.selector.direction = d ∧
        (r.selector.stage = .comment ∨ r.selector.stage = .anyComment) := by
  have hstage (route : Plan.Route) : (route.comment? = none ∧ route.anyComment? = none) ↔
      ¬(route.stage = .comment ∨ route.stage = .anyComment) := by
    cases route <;> simp [Plan.Route.comment?, Plan.Route.anyComment?, Plan.Route.stage]
  have hnone : (Plan.ofRoutes c d routes).comments = none ↔
      ∀ route ∈ routes, route.comment? = none ∧ route.anyComment? = none := by
    simp only [Plan.ofRoutes, Plan.commentStage_eq_none_iff, Plan.firstOfTag_eq_nil_iff,
      List.filterMap_eq_nil_iff, List.findSome?_eq_none_iff]
    exact forall₂_and.symm
  rw [← exists_stage_iff hroutes fun stage => stage = .comment ∨ stage = .anyComment,
    Option.isSome_iff_ne_none, ne_eq, hnone]
  simp only [hstage, not_forall, not_not, exists_prop]

/-! ## Plans -/

/-- A plan calls every receiver of its direction once, at the stage of its kind, and no other receiver; only a comment
that a receiver before has already is left out. Each stage has its receivers in the order of their declaration. No two
arms are for one opcode or for one comment, the marker of bounced messages is skipped exactly if there is a receiver of
bounces, and the stage of comments is there exactly if there is a receiver for one or for any. -/
theorem plan_keeps_receivers (h : c.plan registry d = .ok p) :
    (∀ i r, c.receivers[i]? = some r → r.selector.direction = d → ¬c.IsRepeated d i → ∀ stage,
        (p.receiversAt stage).count i = if stage = r.selector.stage then 1 else 0) ∧
      (∀ i, c.IsRepeated d i → ∀ stage, i ∉ p.receiversAt stage) ∧
      (∀ stage, ∀ i ∈ p.receiversAt stage,
        ∃ r, c.receivers[i]? = some r ∧ r.selector.direction = d) ∧
      (∀ stage, (p.receiversAt stage).Pairwise (· < ·)) ∧
      (p.opcodes.filterMap (·.value?)).Nodup ∧
      (p.bounced.isSome = true ↔ d = .internal) ∧
      (∀ s, p.bounced = some s → (s.arms.map (·.header.value)).Nodup ∧
        (s.skipsMarker = true ↔ ∃ r ∈ c.receivers, r.selector.isBounce = true)) ∧
      (∀ s, p.comments = some s → (s.comments.map (·.hash)).Nodup) ∧
      (p.comments.isSome = true ↔ ∃ r ∈ c.receivers, r.selector.direction = d ∧
        (r.selector.stage = .comment ∨ r.selector.stage = .anyComment)) := by
  obtain ⟨hslots, routes, hroutes, rfl⟩ := plan_eq_ok_iff.mp h
  -- indices that grow along a stage stand there once
  have hnodup (stage : Plan.Stage) : ((Plan.ofRoutes c d routes).receiversAt stage).Nodup :=
    (pairwise_receiversAt hroutes stage).imp Nat.ne_of_lt
  refine ⟨?_, ?_, ?_, pairwise_receiversAt hroutes, nodup_opcodes hslots hroutes, ?_, ?_, ?_,
    isSome_comments_iff hroutes⟩
  · intro i r hr hdirection hnot stage
    by_cases hstage : stage = r.selector.stage
    · rw [if_pos hstage]
      apply List.count_eq_one_of_mem (hnodup stage)
      exact (mem_receiversAt_iff hslots hroutes).mpr ⟨r, hr, hdirection, hstage.symm, hnot⟩
    · rw [if_neg hstage, List.count_eq_zero]
      intro hmem
      obtain ⟨r', hr', -, hsame, -⟩ := (mem_receiversAt_iff hslots hroutes).mp hmem
      obtain rfl := Option.some.inj (hr.symm.trans hr')
      exact hstage hsame.symm
  · intro i hrepeated stage hmem
    obtain ⟨-, -, -, -, hnot⟩ := (mem_receiversAt_iff hslots hroutes).mp hmem
    exact hnot hrepeated
  · intro stage i hmem
    obtain ⟨r, hr, hdirection, -, -⟩ := (mem_receiversAt_iff hslots hroutes).mp hmem
    exact ⟨r, hr, hdirection⟩
  · cases d <;> simp [Plan.ofRoutes]
  · intro s hs
    cases d with
    | external => exact nomatch hs
    | internal =>
      obtain rfl := Option.some.inj hs
      exact ⟨nodup_bounces hslots hroutes, skipsMarker_iff hroutes⟩
  · intro s hs
    rw [Plan.eq_of_commentStage_eq_some hs]
    exact List.pairwise_map.mpr (Plan.firstOfTag_pairwise _)

end Contract

/-- A message without fields. -/
def Message.knock : Message := ⟨"Knock", some ⟨1, .dec⟩, []⟩

/-- Has a comment twice, with a message between, and looks at bounced and at external messages. -/
def Contract.doorman : Contract where
  name := "Doorman"
  fields := []
  receivers :=
    [⟨.comment .internal "hi", [], none⟩, ⟨.message .internal "Knock" "msg", [], none⟩,
      ⟨.comment .internal "hi", [], none⟩, ⟨.any .external "rest", [], none⟩,
      ⟨.bounced "Knock" "msg" false, [], none⟩]

namespace Contract

/-- The doorman's second comment is left out, and the receivers around it are not. -/
theorem plan_keeps_receivers_doorman :
    ∃ p, Contract.doorman.plan ⟨[.knock]⟩ .internal = .ok p ∧
      (p.receiversAt .opcode).count 1 = 1 ∧ (p.receiversAt .bounced).count 4 = 1 ∧
      2 ∉ p.receiversAt .comment ∧ p.comments.isSome = true := by
  obtain ⟨p, hp⟩ : ∃ p, Contract.doorman.plan ⟨[.knock]⟩ .internal = .ok p := ⟨_, rfl⟩
  obtain ⟨honce, hnever, -, -, -, -, -, -, hcomments⟩ := plan_keeps_receivers hp
  have hnot {i : Nat} {r : Receiver} (hr : Contract.doorman.receivers[i]? = some r)
      (hs : r.selector.stage ≠ .comment) : ¬Contract.doorman.IsRepeated .internal i := by
    rintro ⟨tag, ⟨r', text, hr', hcomment, -⟩, -⟩
    obtain rfl := Option.some.inj (hr.symm.trans hr')
    exact hs (by rw [hcomment]; rfl)
  have hrepeated : Contract.doorman.IsRepeated .internal 2 :=
    ⟨_, ⟨_, _, rfl, rfl, rfl⟩, 0, by decide, ⟨_, _, rfl, rfl, rfl⟩⟩
  refine ⟨p, hp, honce 1 _ rfl rfl (hnot rfl (by decide)) .opcode,
    honce 4 _ rfl rfl (hnot rfl (by decide)) .bounced, hnever 2 hrepeated .comment, ?_⟩
  exact hcomments.mpr ⟨_, List.mem_cons_self, rfl, .inl rfl⟩

end Contract
end MessageRouter
