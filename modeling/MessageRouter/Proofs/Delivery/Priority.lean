import MessageRouter.Proofs.Delivery.Selection
import MessageRouter.Proofs.Document.WellFormed
import MessageRouter.Proofs.Plan.FirstMatch
import MessageRouter.Proofs.Plan.Route
/-!
# `Proofs.Delivery.Priority` — delivery as a rule of priority among receivers

The rule looks at the receivers of a contract in the order of their declaration and knows nothing of plans.

* `Contract.takeOpcode`, …, `Contract.takeAnyBounced`: what a receiver gets of a message, if it takes it.
* `Contract.rule`: the first receiver of the first kind that takes a message gets it.
* `Contract.takeOpcode_eq_some`, …, `Contract.takeAnyBounced_eq_some`: what a receiver that takes a message is for.
* `Simulator.select_eq_rule`: the stages of a plan choose as the rule does.
* `Simulator.deliver_eq_bind_rule`, `Simulator.deliver_eq_rule`: a message is delivered to whom the rule gives it.
-/
namespace MessageRouter

open Simulator

namespace Contract

/-! ## Who takes a message -/

/-- What a receiver gets if it takes a message, which may still fail to be read. -/
abbrev Taking := Option (Except Exit Received)

/-- A receiver of a message type takes the messages of its opcode; the receiver of the empty message takes
those of opcode zero with nothing after it. -/
def takeOpcode (registry : Registry) (s : Slice) (r : Receiver) : Taking :=
  match r.selector with
  | .message _ name _ =>
    match registry.layout name with
    | .ok l =>
      if l.header.value.toNat = s.opcode then some ((readLayout l false s).map .struct) else none
    | .error _ => none
  | .empty _ => if s.opcode = 0 ∧ s.remaining ≤ opcodeBits then some (.ok .nothing) else none
  | _ => none

/-- The receiver of a comment takes the message whose hash is the comment's tag. -/
def takeComment (s : Slice) (r : Receiver) : Taking :=
  match r.selector with
  | .comment _ text =>
    match Comment.tag text r.loc with
    | .ok tag => if s.opcode = 0 ∧ tag = s.hashText then some (.ok .nothing) else none
    | .error _ => none
  | _ => none

/-- The receiver of any comment takes what follows an opcode of zero that is there. -/
def takeAnyComment (s : Slice) (r : Receiver) : Taking :=
  match r.selector with
  | .anyComment .. =>
    if s.opcode = 0 ∧ opcodeBits ≤ s.remaining then some (.ok (.slice (s.drop opcodeBits))) else none
  | _ => none

/-- The receiver of any message takes the whole message. -/
def takeAny (s : Slice) (r : Receiver) : Taking :=
  match r.selector with
  | .any .. => some (.ok (.slice s))
  | _ => none

/-- A receiver of bounced messages of a type takes those of its opcode, whole or as far as it asks for. -/
def takeBounced (registry : Registry) (s : Slice) (r : Receiver) : Taking :=
  match r.selector with
  | .bounced name _ isPartial =>
    match registry.layout name with
    | .ok l =>
      if l.header.value.toNat = s.opcode then some ((readLayout l isPartial s).map .struct) else none
    | .error _ => none
  | _ => none

/-- The receiver of any bounced message takes the whole message. -/
def takeAnyBounced (s : Slice) (r : Receiver) : Taking :=
  match r.selector with
  | .anyBounced _ => some (.ok (.slice s))
  | _ => none

/-! ## The rule -/

/-- The choice of the receiver at an index, if it takes a message. -/
def taken (take : Receiver → Taking) (r : Receiver × Nat) : Option (Except Exit (Selection Nat)) :=
  (take r.1).map fun got => got.map (.call r.2)

/-- The choice of the first receiver that takes a message, if there is one. -/
def first (take : Receiver → Taking) (receivers : List (Receiver × Nat)) :
    Option (Except Exit (Selection Nat)) :=
  receivers.findSome? (taken take)

/-- The rule for bounced messages. Their marker is skipped if there is a receiver of bounces at all. -/
def bouncedRule (registry : Registry) (receivers : List (Receiver × Nat)) (s : Slice) :
    Except Exit (Selection Nat) :=
  if receivers.any (·.1.selector.isBounce) then
    if bounceMarkerBits ≤ s.remaining then
      (first (takeBounced registry (s.drop bounceMarkerBits)) receivers <|>
        first (takeAnyBounced (s.drop bounceMarkerBits)) receivers).getD (.ok .swallowed)
    else .error (.codec (.cell (.underflow bounceMarkerBits s.remaining)))
  else .ok .swallowed

/-- The rule for messages that are not bounced. -/
def plainRule (registry : Registry) (receivers : List (Receiver × Nat)) (s : Slice) :
    Except Exit (Selection Nat) :=
  (first (takeOpcode registry s) receivers <|> first (takeComment s) receivers <|>
    first (takeAnyComment s) receivers <|> first (takeAny s) receivers).getD (.ok .unhandled)

/-- The first receiver of the first kind that takes a message gets it. Only messages from other contracts
can be bounced. -/
def rule (c : Contract) (registry : Registry) (d : Direction) (body : Cell) (isBounced : Bool) :
    Except Exit (Selection Nat) :=
  if d = .internal ∧ isBounced = true then
    bouncedRule registry (c.receiversFor d) (Slice.ofCell body)
  else plainRule registry (c.receiversFor d) (Slice.ofCell body)

/-- What a choice does to the state: the procedure of the receiver runs from it. -/
def answer (c : Contract) (registry : Registry) (state : Record) :
    Selection Nat → Except Exit Outcome
  | .call index received =>
    match c.procedure registry index with
    | .ok p => do
      let (_, f) ← (Call.mk p received).exec p.body (Frame.ofState state)
      return ⟨f.state, true, some index⟩
    | .error _ => .error (.noLayout index)
  | .swallowed => .ok ⟨state, true, none⟩
  | .unhandled => .ok ⟨state, false, none⟩

/-- Who answers is the receiver that was chosen. -/
theorem receiver_of_answer_call {c : Contract} {registry : Registry} {state : Record} {i : Nat}
    {received : Received} {outcome : Outcome}
    (h : c.answer registry state (.call i received) = .ok outcome) : outcome.receiver = some i := by
  simp only [answer] at h
  cases hp : c.procedure registry i with
  | error e => rw [hp] at h; exact nomatch h
  | ok p =>
    rw [hp] at h
    obtain ⟨_, _, h⟩ := Fallible.bind_eq_ok_iff.mp h
    exact Except.ok.inj h ▸ rfl

/-! ## Whom the rule gives a message to -/

variable {registry : Registry} {s : Slice} {r : Receiver} {got : Except Exit Received}

/-! ### What a receiver that takes a message is for -/

theorem takeOpcode_eq_some (h : takeOpcode registry s r = some got) :
    (∃ d name binding l, r.selector = .message d name binding ∧ registry.layout name = .ok l ∧
        l.header.value.toNat = s.opcode ∧ got = (readLayout l false s).map .struct) ∨
      ∃ d, r.selector = .empty d ∧ s.opcode = 0 ∧ s.remaining ≤ opcodeBits ∧ got = .ok .nothing := by
  unfold takeOpcode at h
  split at h
  · next d name binding hs =>
    cases hl : registry.layout name with
    | error e =>
      rw [hl] at h
      cases h
    | ok l =>
      simp only [hl] at h
      split at h
      · next hop => exact .inl ⟨d, name, binding, l, hs, hl, hop, (Option.some.inj h).symm⟩
      · cases h
  · next d hs =>
    split at h
    · next hempty => exact .inr ⟨d, hs, hempty.1, hempty.2, (Option.some.inj h).symm⟩
    · cases h
  · cases h

theorem takeComment_eq_some (h : takeComment s r = some got) :
    ∃ d text tag, r.selector = .comment d text ∧ Comment.tag text r.loc = .ok tag ∧ s.opcode = 0 ∧
      tag = s.hashText ∧ got = .ok .nothing := by
  unfold takeComment at h
  split at h
  · next d text hs =>
    cases ht : Comment.tag text r.loc with
    | error e =>
      rw [ht] at h
      cases h
    | ok tag =>
      simp only [ht] at h
      split at h
      · next htag => exact ⟨d, text, tag, hs, ht, htag.1, htag.2, (Option.some.inj h).symm⟩
      · cases h
  · cases h

theorem takeAnyComment_eq_some (h : takeAnyComment s r = some got) :
    ∃ d binding, r.selector = .anyComment d binding ∧ s.opcode = 0 ∧ opcodeBits ≤ s.remaining ∧
      got = .ok (.slice (s.drop opcodeBits)) := by
  unfold takeAnyComment at h
  split at h
  · next d binding hs =>
    split at h
    · next hop => exact ⟨d, binding, hs, hop.1, hop.2, (Option.some.inj h).symm⟩
    · cases h
  · cases h

theorem takeAny_eq_some (h : takeAny s r = some got) :
    ∃ d binding, r.selector = .any d binding ∧ got = .ok (.slice s) := by
  unfold takeAny at h
  split at h
  · next d binding hs => exact ⟨d, binding, hs, (Option.some.inj h).symm⟩
  · cases h

theorem takeBounced_eq_some (h : takeBounced registry s r = some got) :
    ∃ name binding isPartial l, r.selector = .bounced name binding isPartial ∧
      registry.layout name = .ok l ∧ l.header.value.toNat = s.opcode ∧
      got = (readLayout l isPartial s).map .struct := by
  unfold takeBounced at h
  split at h
  · next name binding isPartial hs =>
    cases hl : registry.layout name with
    | error e =>
      rw [hl] at h
      cases h
    | ok l =>
      simp only [hl] at h
      split at h
      · next hop => exact ⟨name, binding, isPartial, l, hs, hl, hop, (Option.some.inj h).symm⟩
      · cases h
  · cases h

theorem takeAnyBounced_eq_some (h : takeAnyBounced s r = some got) :
    ∃ binding, r.selector = .anyBounced binding ∧ got = .ok (.slice s) := by
  unfold takeAnyBounced at h
  split at h
  · next binding hs => exact ⟨binding, hs, (Option.some.inj h).symm⟩
  · cases h

theorem isBounce_of_takeOpcode (h : takeOpcode registry s r = some got) :
    r.selector.isBounce = false := by
  rcases takeOpcode_eq_some h with ⟨_, _, _, _, hs, -⟩ | ⟨_, hs, -⟩ <;> rw [hs] <;> rfl

theorem isBounce_of_takeComment (h : takeComment s r = some got) : r.selector.isBounce = false := by
  obtain ⟨_, _, _, hs, -⟩ := takeComment_eq_some h
  rw [hs]
  rfl

theorem isBounce_of_takeAnyComment (h : takeAnyComment s r = some got) :
    r.selector.isBounce = false := by
  obtain ⟨_, _, hs, -⟩ := takeAnyComment_eq_some h
  rw [hs]
  rfl

theorem isBounce_of_takeAny (h : takeAny s r = some got) : r.selector.isBounce = false := by
  obtain ⟨_, _, hs, -⟩ := takeAny_eq_some h
  rw [hs]
  rfl

theorem isBounce_of_takeBounced (h : takeBounced registry s r = some got) :
    r.selector.isBounce = true := by
  obtain ⟨_, _, _, _, hs, -⟩ := takeBounced_eq_some h
  rw [hs]
  rfl

theorem isBounce_of_takeAnyBounced (h : takeAnyBounced s r = some got) :
    r.selector.isBounce = true := by
  obtain ⟨_, hs, -⟩ := takeAnyBounced_eq_some h
  rw [hs]
  rfl

/-! ### Searches -/

theorem takeComment_eq_none (h : s.opcode ≠ 0) : takeComment s r = none := by
  refine Option.eq_none_iff_forall_ne_some.mpr fun got hgot => ?_
  obtain ⟨_, _, _, -, -, hop, -⟩ := takeComment_eq_some hgot
  exact h hop

theorem takeAnyComment_eq_none (h : ¬(s.opcode = 0 ∧ opcodeBits ≤ s.remaining)) :
    takeAnyComment s r = none := by
  refine Option.eq_none_iff_forall_ne_some.mpr fun got hgot => ?_
  obtain ⟨_, _, -, hop, hlength, -⟩ := takeAnyComment_eq_some hgot
  exact h ⟨hop, hlength⟩

/-- A search finds nothing exactly among receivers none of which takes the message. -/
theorem first_eq_none_iff {take : Receiver → Taking} {rs : List (Receiver × Nat)} :
    first take rs = none ↔ ∀ r ∈ rs, take r.1 = none := by
  rw [first, List.findSome?_eq_none_iff]
  exact forall₂_congr fun r _ => Option.map_eq_none_iff

theorem first_eq_none {take : Receiver → Taking} {rs : List (Receiver × Nat)}
    (h : ∀ r ∈ rs, take r.1 = none) : first take rs = none :=
  first_eq_none_iff.mpr h

/-- The receiver that a search finds is one of those that were searched, and takes the message. -/
theorem exists_of_first_eq_call {take : Receiver → Taking} {rs : List (Receiver × Nat)} {i : Nat}
    {received : Received} (h : first take rs = some (.ok (.call i received))) :
    ∃ r, (r, i) ∈ rs ∧ take r = some (.ok received) := by
  obtain ⟨⟨r, j⟩, hmem, hr⟩ := List.exists_of_findSome?_eq_some h
  obtain ⟨got, hgot, hcall⟩ := Option.map_eq_some_iff.mp hr
  obtain ⟨received', hreceived, hcall⟩ := Fallible.map_eq_ok_iff.mp hcall
  injection hcall with hi hr
  exact ⟨r, hi ▸ hmem, by rw [hgot, hreceived, hr]⟩

/-- What a search with a way out gives was found first or is what the rest gives. -/
theorem eq_some_or_of_getD_orElse {α : Type} {a b : Option α} {x y : α}
    (h : (a <|> b).getD y = x) : a = some x ∨ b.getD y = x := by
  cases a with
  | some a => exact .inl (congrArg some h)
  | none => exact .inr h

/-- The rule gives bounced messages to receivers of bounces. -/
theorem exists_of_bouncedRule_eq_call {rs : List (Receiver × Nat)} {i : Nat} {received : Received}
    (h : bouncedRule registry rs s = .ok (.call i received)) :
    ∃ r, (r, i) ∈ rs ∧ r.selector.isBounce = true := by
  unfold bouncedRule at h
  split at h
  · split at h
    · rcases eq_some_or_of_getD_orElse h with h | h
      · obtain ⟨r, hmem, hr⟩ := exists_of_first_eq_call h
        exact ⟨r, hmem, isBounce_of_takeBounced hr⟩
      · rcases Option.getD_eq_iff.mp h with h | ⟨_, h⟩
        · obtain ⟨r, hmem, hr⟩ := exists_of_first_eq_call h
          exact ⟨r, hmem, isBounce_of_takeAnyBounced hr⟩
        · exact nomatch h
    · exact nomatch h
  · exact nomatch h

/-- The rule gives messages that are not bounced to other receivers. -/
theorem exists_of_plainRule_eq_call {rs : List (Receiver × Nat)} {i : Nat} {received : Received}
    (h : plainRule registry rs s = .ok (.call i received)) :
    ∃ r, (r, i) ∈ rs ∧ r.selector.isBounce = false := by
  rcases eq_some_or_of_getD_orElse h with h | h
  · obtain ⟨r, hmem, hr⟩ := exists_of_first_eq_call h
    exact ⟨r, hmem, isBounce_of_takeOpcode hr⟩
  rcases eq_some_or_of_getD_orElse h with h | h
  · obtain ⟨r, hmem, hr⟩ := exists_of_first_eq_call h
    exact ⟨r, hmem, isBounce_of_takeComment hr⟩
  rcases eq_some_or_of_getD_orElse h with h | h
  · obtain ⟨r, hmem, hr⟩ := exists_of_first_eq_call h
    exact ⟨r, hmem, isBounce_of_takeAnyComment hr⟩
  rcases Option.getD_eq_iff.mp h with h | ⟨_, h⟩
  · obtain ⟨r, hmem, hr⟩ := exists_of_first_eq_call h
    exact ⟨r, hmem, isBounce_of_takeAny hr⟩
  · exact nomatch h

/-- The rule gives a message to a receiver of its direction, and to a receiver of bounces exactly if it was
bounced. -/
theorem receiver_of_rule_eq_call {c : Contract} {d : Direction} {body : Cell} {isBounced : Bool}
    {i : Nat} {received : Received}
    (h : c.rule registry d body isBounced = .ok (.call i received)) :
    ∃ r, c.receivers[i]? = some r ∧ r.selector.direction = d ∧
      (r.selector.isBounce = true ↔ d = .internal ∧ isBounced = true) := by
  unfold rule at h
  split at h
  · next hd =>
    obtain ⟨r, hmem, hbounce⟩ := exists_of_bouncedRule_eq_call h
    obtain ⟨hr, hdir⟩ := getElem?_of_mem_receiversFor hmem
    exact ⟨r, hr, hdir, fun _ => hd, fun _ => hbounce⟩
  · next hd =>
    obtain ⟨r, hmem, hbounce⟩ := exists_of_plainRule_eq_call h
    obtain ⟨hr, hdir⟩ := getElem?_of_mem_receiversFor hmem
    exact ⟨r, hr, hdir, fun hb => (nomatch hb.symm.trans hbounce), fun hb => absurd hb hd⟩

end Contract

/-! ## The stages of a plan against the rule -/

namespace Simulator

variable {c : Contract} {registry : Registry} {sim : Simulator} {d : Direction}
  {routes : List Plan.Route} {r : Receiver} {i : Nat} {route : Plan.Route} {s : Slice}

/-- What the receiver of an opcode takes is what its arm is for. -/
theorem takeOpcode_eq_of_isRoute (h : ofContract c registry = .ok sim)
    (hr : c.receivers[i]? = some r) (hroute : c.IsRoute registry r i route) :
    Contract.taken (Contract.takeOpcode registry s) (r, i) =
      (route.opcode?.filter (isFor s.opcode s)).map fun arm =>
        (sim.selectOpcode arm s).map (Selection.map (·.receiver)) := by
  unfold Contract.taken Contract.takeOpcode
  cases hroute with
  | @message d name binding l f hs hl hf =>
    have hread : sim.readStruct ⟨i, f⟩ false s = readLayout l false s :=
      readStruct_eq_readLayout h hr (by rw [hs]; rfl) hl false s
    simp only [hs, hl, Plan.Route.opcode?, Option.filter, isFor, decide_eq_true_eq]
    by_cases hop : l.header.value.toNat = s.opcode
    · simp only [if_pos hop, Option.map_some, selectOpcode, hread]
      cases readLayout l false s <;> rfl
    · simp only [if_neg hop, Option.map_none]
  | @empty d f hs hf =>
    simp only [hs, Plan.Route.opcode?, Option.filter, isFor, Bool.and_eq_true, decide_eq_true_eq]
    by_cases hop : s.opcode = 0 ∧ s.remaining ≤ opcodeBits
    · simp only [if_pos hop]; rfl
    · simp only [if_neg hop]; rfl
  | comment hs | anyComment hs | any hs | bounced hs | anyBounced hs => simp only [hs]; rfl

/-- What the receiver of a comment takes is what its arm is for. -/
theorem takeComment_eq_of_isRoute (hroute : c.IsRoute registry r i route) (hop : s.opcode = 0) :
    Contract.taken (Contract.takeComment s) (r, i) =
      (route.comment?.filter (·.hash = s.hashText)).map fun arm =>
        .ok (.call arm.handler.receiver .nothing) := by
  unfold Contract.taken Contract.takeComment
  cases hroute with
  | @comment d text tag f hs ht hf =>
    simp only [hs, ht, hop, true_and, Plan.Route.comment?, Option.filter, decide_eq_true_eq]
    by_cases htag : tag = s.hashText
    · simp only [if_pos htag]; rfl
    · simp only [if_neg htag]; rfl
  | message hs | empty hs | anyComment hs | any hs | bounced hs | anyBounced hs =>
    simp only [hs]; rfl

theorem takeAnyComment_eq_of_isRoute (hroute : c.IsRoute registry r i route)
    (hs : s.opcode = 0 ∧ opcodeBits ≤ s.remaining) :
    Contract.taken (Contract.takeAnyComment s) (r, i) =
      route.anyComment?.map fun h => .ok (.call h.receiver (.slice (s.drop opcodeBits))) := by
  unfold Contract.taken Contract.takeAnyComment
  cases hroute with
  | anyComment hr => simp only [hr, if_pos hs]; rfl
  | message hr | empty hr | comment hr | any hr | bounced hr | anyBounced hr =>
    simp only [hr]; rfl

theorem takeAny_eq_of_isRoute (hroute : c.IsRoute registry r i route) :
    Contract.taken (Contract.takeAny s) (r, i) =
      route.any?.map fun h => .ok (.call h.receiver (.slice s)) := by
  unfold Contract.taken Contract.takeAny
  cases hroute with
  | any hr => simp only [hr]; rfl
  | message hr | empty hr | comment hr | anyComment hr | bounced hr | anyBounced hr =>
    simp only [hr]; rfl

/-- What a receiver of bounced messages takes is what its arm is for. -/
theorem takeBounced_eq_of_isRoute (h : ofContract c registry = .ok sim)
    (hr : c.receivers[i]? = some r) (hroute : c.IsRoute registry r i route) :
    Contract.taken (Contract.takeBounced registry s) (r, i) =
      (route.bounced?.filter (·.header.value.toNat = s.opcode)).map fun arm =>
        ((sim.readStruct arm.handler arm.isPartial s).map Received.struct).map
          (.call arm.handler.receiver) := by
  unfold Contract.taken Contract.takeBounced
  cases hroute with
  | @bounced name binding isPartial l f hs hl hf =>
    have hread : sim.readStruct ⟨i, f⟩ isPartial s = readLayout l isPartial s :=
      readStruct_eq_readLayout h hr (by rw [hs]; rfl) hl isPartial s
    simp only [hs, hl, Plan.Route.bounced?, Option.filter, decide_eq_true_eq]
    by_cases hop : l.header.value.toNat = s.opcode
    · simp only [if_pos hop, Option.map_some, hread]
    · simp only [if_neg hop, Option.map_none]
  | message hs | empty hs | comment hs | anyComment hs | any hs | anyBounced hs =>
    simp only [hs]; rfl

theorem takeAnyBounced_eq_of_isRoute (hroute : c.IsRoute registry r i route) :
    Contract.taken (Contract.takeAnyBounced s) (r, i) =
      route.anyBounced?.map fun h => .ok (.call h.receiver (.slice s)) := by
  unfold Contract.taken Contract.takeAnyBounced
  cases hroute with
  | anyBounced hr => simp only [hr]; rfl
  | message hr | empty hr | comment hr | anyComment hr | any hr | bounced hr =>
    simp only [hr]; rfl

/-- A marker is skipped exactly where there is a receiver of bounces. -/
theorem skipsMarker_eq_any_isBounce (hroutes : c.routes registry .internal = .ok routes) :
    (Plan.BounceStage.mk (routes.filterMap Plan.Route.bounced?)
        (routes.findSome? Plan.Route.anyBounced?)).skipsMarker =
      (c.receiversFor .internal).any (·.1.selector.isBounce) := by
  rw [Plan.skipsMarker_eq_any]
  refine (any_eq_of_forall₂ (Contract.forall₂_of_routes_eq_ok hroutes) ?_).symm
  rintro ⟨r, i⟩ route ⟨_, hroute⟩
  show r.selector.isBounce = _
  cases hroute with
  | message hs | empty hs | comment hs | anyComment hs | any hs | bounced hs | anyBounced hs =>
    rw [hs]; rfl

/-! ## Choices -/

/-- A message that is a comment goes to whom the rule gives it. -/
theorem map_selectComment_eq (hroutes : c.routes registry d = .ok routes) (s : Slice) :
    (selectComment (Plan.ofRoutes c d routes).comments s.opcode s).map
        (Option.map fun choice => .ok (.call choice.1.receiver choice.2)) =
      .ok (Contract.first (Contract.takeComment s) (c.receiversFor d) <|>
        Contract.first (Contract.takeAnyComment s) (c.receiversFor d)) := by
  have hall := Contract.forall₂_of_routes_eq_ok hroutes
  show (selectComment (Plan.commentStage _ _) _ _).map _ = _
  -- a stage keeps one arm for each tag, which is the one that a search finds first anyway
  rw [selectComment_eq, commentReceiver_eq, Plan.find?_firstOfTag]
  by_cases hop : s.opcode = 0
  · have hcomment : Contract.first (Contract.takeComment s) (c.receiversFor d) =
        ((routes.filterMap Plan.Route.comment?).find? (·.hash = s.hashText)).map fun arm =>
          .ok (.call arm.handler.receiver .nothing) := by
      rw [map_find?_filterMap]
      exact findSome?_eq_of_forall₂ hall fun _ _ hr => takeComment_eq_of_isRoute hr.2 hop
    rw [if_pos hop, hcomment]
    show Except.ok _ = _
    cases (routes.filterMap Plan.Route.comment?).find? (·.hash = s.hashText) with
    | some arm => rfl
    | none =>
      by_cases hlen : opcodeBits ≤ s.remaining
      · have hany : Contract.first (Contract.takeAnyComment s) (c.receiversFor d) =
            (routes.findSome? Plan.Route.anyComment?).map fun h =>
              .ok (.call h.receiver (.slice (s.drop opcodeBits))) := by
          rw [List.map_findSome?]
          exact findSome?_eq_of_forall₂ hall fun _ _ hr =>
            takeAnyComment_eq_of_isRoute hr.2 ⟨hop, hlen⟩
        rw [if_pos hlen, hany]
        cases routes.findSome? Plan.Route.anyComment? <;> rfl
      · rw [if_neg hlen, Contract.first_eq_none fun r _ =>
          Contract.takeAnyComment_eq_none fun hs => hlen hs.2]
        rfl
  · rw [if_neg hop, Contract.first_eq_none fun r _ => Contract.takeComment_eq_none hop,
      Contract.first_eq_none fun r _ => Contract.takeAnyComment_eq_none fun hs => hop hs.1]
    rfl

/-- Messages that are not bounced are chosen for as the rule gives them. -/
theorem selectPlain_eq_rule (h : ofContract c registry = .ok sim)
    (hroutes : c.routes registry d = .ok routes) (s : Slice) :
    (sim.selectPlain (Plan.ofRoutes c d routes) s).map (Selection.map (·.receiver)) =
      Contract.plainRule registry (c.receiversFor d) s := by
  have hall := Contract.forall₂_of_routes_eq_ok hroutes
  -- a search among receivers is one among their routes, and so one among the arms of a stage
  have hopcode : Contract.first (Contract.takeOpcode registry s) (c.receiversFor d) =
      ((routes.filterMap Plan.Route.opcode?).find? (isFor s.opcode s)).map fun arm =>
        (sim.selectOpcode arm s).map (Selection.map (·.receiver)) := by
    rw [map_find?_filterMap]
    exact findSome?_eq_of_forall₂ hall fun _ _ hr => takeOpcode_eq_of_isRoute h hr.1 hr.2
  have hany : Contract.first (Contract.takeAny s) (c.receiversFor d) =
      (routes.findSome? Plan.Route.any?).map fun h => .ok (.call h.receiver (.slice s)) := by
    rw [List.map_findSome?]
    exact findSome?_eq_of_forall₂ hall fun _ _ hr => takeAny_eq_of_isRoute hr.2
  obtain ⟨choice, hchoice, hcomment⟩ := Fallible.map_eq_ok_iff.mp (map_selectComment_eq hroutes s)
  have hcomments (others : Option (Except Exit (Selection Nat))) :
      (Contract.first (Contract.takeComment s) (c.receiversFor d) <|>
        Contract.first (Contract.takeAnyComment s) (c.receiversFor d) <|> others) =
      (choice.map (fun choice => .ok (.call choice.1.receiver choice.2)) <|> others) := by
    rw [hcomment]
    cases Contract.first (Contract.takeComment s) (c.receiversFor d) <;> rfl
  have harms : (Plan.ofRoutes c d routes).opcodes = routes.filterMap Plan.Route.opcode? := rfl
  unfold Contract.plainRule
  rw [selectPlain_eq, harms, hopcode, hany, hcomments]
  cases (routes.filterMap Plan.Route.opcode?).find? (isFor s.opcode s) with
  | some arm => rfl
  | none =>
    simp only [hchoice]
    cases choice with
    | some choice => rfl
    | none =>
      show Except.map _ (.ok (selectAny (routes.findSome? Plan.Route.any?) s)) = _
      cases routes.findSome? Plan.Route.any? <;> rfl

/-- Bounced messages after their marker are chosen for as the rule gives them. -/
theorem selectUnmarked_eq_rule (h : ofContract c registry = .ok sim)
    (hroutes : c.routes registry .internal = .ok routes) (s : Slice) :
    (sim.selectUnmarked
      ⟨routes.filterMap Plan.Route.bounced?, routes.findSome? Plan.Route.anyBounced?⟩ s).map
        (Selection.map (·.receiver)) =
      (Contract.first (Contract.takeBounced registry s) (c.receiversFor .internal) <|>
        Contract.first (Contract.takeAnyBounced s) (c.receiversFor .internal)).getD
          (.ok .swallowed) := by
  have hall := Contract.forall₂_of_routes_eq_ok hroutes
  have hbounced : Contract.first (Contract.takeBounced registry s) (c.receiversFor .internal) =
      ((routes.filterMap Plan.Route.bounced?).find? (·.header.value.toNat = s.opcode)).map
        fun arm => ((sim.readStruct arm.handler arm.isPartial s).map Received.struct).map
          (.call arm.handler.receiver) := by
    rw [map_find?_filterMap]
    exact findSome?_eq_of_forall₂ hall fun _ _ hr => takeBounced_eq_of_isRoute h hr.1 hr.2
  have hany : Contract.first (Contract.takeAnyBounced s) (c.receiversFor .internal) =
      (routes.findSome? Plan.Route.anyBounced?).map fun h => .ok (.call h.receiver (.slice s)) := by
    rw [List.map_findSome?]
    exact findSome?_eq_of_forall₂ hall fun _ _ hr => takeAnyBounced_eq_of_isRoute hr.2
  rw [selectUnmarked_eq, hbounced, hany]
  cases (routes.filterMap Plan.Route.bounced?).find? (·.header.value.toNat = s.opcode) with
  | some arm =>
    show Except.map _ (sim.readStruct arm.handler arm.isPartial s >>= _) =
      Except.map _ (Except.map _ (sim.readStruct arm.handler arm.isPartial s))
    cases sim.readStruct arm.handler arm.isPartial s <;> rfl
  | none => cases routes.findSome? Plan.Route.anyBounced? <;> rfl

/-- Bounced messages are chosen for as the rule gives them. -/
theorem selectBounced_eq_rule (h : ofContract c registry = .ok sim)
    (hroutes : c.routes registry .internal = .ok routes) (s : Slice) :
    (sim.selectBounced
        ⟨routes.filterMap Plan.Route.bounced?, routes.findSome? Plan.Route.anyBounced?⟩ s).map
          (Selection.map (·.receiver)) =
      Contract.bouncedRule registry (c.receiversFor .internal) s := by
  unfold selectBounced Contract.bouncedRule
  rw [skipsMarker_eq_any_isBounce hroutes]
  cases hany : (c.receiversFor .internal).any (·.1.selector.isBounce) with
  | true =>
    rw [if_pos rfl, if_pos rfl, skip_eq]
    by_cases hlen : bounceMarkerBits ≤ s.remaining
    · rw [if_pos hlen, if_pos hlen]
      exact selectUnmarked_eq_rule h hroutes _
    · rw [if_neg hlen, if_neg hlen]
      rfl
  | false =>
    -- without a receiver of bounces there is no arm either, and the message is swallowed
    have hnone {take : Receiver → Contract.Taking}
        (htake : ∀ r got, take r = some got → r.selector.isBounce = true) :
        Contract.first take (c.receiversFor .internal) = none := by
      refine Contract.first_eq_none fun r hr => Option.eq_none_iff_forall_ne_some.mpr fun got hgot => ?_
      exact List.any_eq_false.mp hany r hr (htake r.1 got hgot)
    rw [if_neg Bool.false_ne_true, if_neg Bool.false_ne_true, selectUnmarked_eq_rule h hroutes,
      hnone fun _ _ => Contract.isBounce_of_takeBounced,
      hnone fun _ _ => Contract.isBounce_of_takeAnyBounced]
    rfl

/-- The stages of a plan choose as the rule does. -/
theorem select_eq_rule (h : ofContract c registry = .ok sim) (d : Direction) (body : Cell)
    (isBounced : Bool) :
    (sim.select d body isBounced).map (Selection.map (·.receiver)) =
      c.rule registry d body isBounced := by
  unfold select
  cases hp : sim.plan? d with
  | none =>
    obtain ⟨rfl, hnone⟩ :=
      Contract.receiversFor_of_hasRouter_eq_false (hasRouter_of_plan?_eq_none h hp)
    unfold Contract.rule
    rw [hnone]
    rfl
  | some p =>
    obtain ⟨_, routes, hroutes, rfl⟩ := Contract.plan_eq_ok_iff.mp (plan_of_plan? h hp)
    unfold selectIn Contract.rule
    cases d with
    | external => exact selectPlain_eq_rule h hroutes _
    | internal =>
      cases isBounced with
      | false => exact selectPlain_eq_rule h hroutes _
      | true => exact selectBounced_eq_rule h hroutes _

/-- Answering a choice runs the procedure of the receiver that the choice names. -/
theorem answer_eq_answer_map (h : ofContract c registry = .ok sim) (state : Record)
    {choice : Selection Plan.Handler}
    (hchoice : ∀ i received, choice.map (·.receiver) = .call i received →
      ∃ r, c.receivers[i]? = some r) :
    sim.answer state choice = c.answer registry state (choice.map (·.receiver)) := by
  cases choice with
  | swallowed | unhandled => rfl
  | call hd received =>
    obtain ⟨r, hr⟩ := hchoice hd.receiver received rfl
    obtain ⟨p, hp, hproc⟩ := procedures_getElem? h hr
    show sim.call hd state received = match c.procedure registry hd.receiver with
      | .ok p => _
      | .error _ => _
    unfold call
    rw [hp, hproc]

/-- Whoever the rule chooses runs, in the state as it is given. -/
theorem deliver_eq_bind_rule (h : ofContract c registry = .ok sim) (d : Direction) (state : Record)
    (body : Cell) (isBounced : Bool) :
    sim.deliver d state body isBounced =
      c.rule registry d body isBounced >>= c.answer registry state := by
  have hrule := select_eq_rule h d body isBounced
  rw [deliver_eq_select, ← hrule]
  cases hsel : sim.select d body isBounced with
  | error e => rfl
  | ok choice =>
    refine answer_eq_answer_map h state fun i received hcall => ?_
    rw [hsel] at hrule
    obtain ⟨r, hr, -, -⟩ := Contract.receiver_of_rule_eq_call
      (hrule.symm.trans (congrArg Except.ok hcall))
    exact ⟨r, hr⟩

/-- Whoever answered a message was chosen for it by the rule. -/
theorem exists_rule_eq_call (h : ofContract c registry = .ok sim) {d : Direction} {state : Record}
    {body : Cell} {isBounced : Bool} {outcome : Outcome} {i : Nat}
    (hout : sim.deliver d state body isBounced = .ok outcome) (hi : outcome.receiver = some i) :
    ∃ received, c.rule registry d body isBounced = .ok (.call i received) := by
  rw [deliver_eq_bind_rule h] at hout
  obtain ⟨choice, hchoice, hanswer⟩ := Fallible.bind_eq_ok_iff.mp hout
  cases choice with
  | swallowed | unhandled =>
    obtain rfl := Except.ok.inj hanswer
    cases hi
  | call index received =>
    have hindex := Contract.receiver_of_answer_call hanswer
    obtain rfl : index = i := Option.some.inj (hindex.symm.trans hi)
    exact ⟨received, hchoice⟩

/-- A message is delivered to whom the rule gives it, and bounced messages only to receivers of bounces. -/
theorem deliver_eq_rule (h : ofContract c registry = .ok sim) (d : Direction) (state : Record)
    (body : Cell) (isBounced : Bool) :
    sim.deliver d state body isBounced =
        c.rule registry d body isBounced >>= c.answer registry state ∧
      ∀ outcome i, sim.deliver d state body isBounced = .ok outcome → outcome.receiver = some i →
        ∃ r, c.receivers[i]? = some r ∧ r.selector.direction = d ∧
          (r.selector.isBounce = true ↔ d = .internal ∧ isBounced = true) := by
  refine ⟨deliver_eq_bind_rule h d state body isBounced, fun outcome i hout hi => ?_⟩
  obtain ⟨received, hchoice⟩ := exists_rule_eq_call h hout hi
  exact Contract.receiver_of_rule_eq_call hchoice

end Simulator

/-- The empty message goes to the first receiver. -/
theorem Simulator.deliver_eq_rule_counter :
    ∃ sim, ofContract .counter .empty = .ok sim ∧
      sim.deliver .internal ⟨[("n", .int 0)]⟩ .empty false =
        Contract.counter.rule .empty .internal .empty false >>=
          Contract.counter.answer .empty ⟨[("n", .int 0)]⟩ ∧
      (sim.deliver .internal ⟨[("n", .int 0)]⟩ .empty false).map (·.receiver) = .ok (some 0) := by
  refine ⟨_, rfl, ?_, ?_⟩
  · exact (deliver_eq_rule rfl _ _ _ _).1
  · decide +kernel

end MessageRouter
