import MessageRouter.Proofs.Delivery.Selection
import MessageRouter.Proofs.Plan.Routes
/-!
# `Proofs.Router.Handlers` — whom the stages of a plan may call

* `AllHandlers`: the handlers of all stages are among some handlers.
* `calls_selectIn`: a plan calls nobody but its handlers.
* `allHandlers_ofRoutes`: the handlers of a plan are those of its routes.
* `exists_procedure_of_selectIn_eq_call`: the receiver that is called has the function that its handler names.
-/
namespace MessageRouter
namespace Simulator

open Fallible (Ends)

variable {good : Plan.Handler → Prop}

/-! ## Choices -/

/-- Whoever is called is one of some handlers. -/
def Selection.Calls (good : Plan.Handler → Prop) (choice : Selection Plan.Handler) : Prop :=
  ∀ hd received, choice = .call hd received → good hd

/-- The handlers of all stages are among some handlers. -/
structure AllHandlers (good : Plan.Handler → Prop) (p : Plan) : Prop where
  bounced : ∀ stage, p.bounced = some stage →
    (∀ arm ∈ stage.arms, good arm.handler) ∧ ∀ hd, stage.fallback = some hd → good hd
  opcodes : ∀ arm ∈ p.opcodes, good arm.handler
  comments : ∀ stage, p.comments = some stage →
    (∀ arm ∈ stage.comments, good arm.handler) ∧ ∀ hd, stage.fallback = some hd → good hd
  fallback : ∀ hd, p.fallback = some hd → good hd

theorem Selection.calls_call {hd : Plan.Handler} (h : good hd) (received : Received) :
    (Selection.call hd received).Calls good := by
  intro hd' received' heq
  injection heq with hsame _
  exact hsame ▸ h

theorem Selection.calls_swallowed : Selection.swallowed.Calls good := by
  intro hd received heq
  cases heq

theorem Selection.calls_unhandled : Selection.unhandled.Calls good := by
  intro hd received heq
  cases heq

/-- A struct is handed to the handler of its arm. -/
theorem calls_readStruct (sim : Simulator) {hd : Plan.Handler} (h : good hd) (isPartial : Bool)
    (s : Slice) :
    Ends (Selection.Calls good) (fun _ => True)
      (do return .call hd (.struct (← sim.readStruct hd isPartial s))) := by
  have hread : Ends (fun _ => True) (fun _ => True) (sim.readStruct hd isPartial s) := by
    cases sim.readStruct hd isPartial s <;> trivial
  exact hread.bind fun r _ => Selection.calls_call h _

theorem calls_selectBounced (sim : Simulator) {stage : Plan.BounceStage}
    (harms : ∀ arm ∈ stage.arms, good arm.handler)
    (hfallback : ∀ hd, stage.fallback = some hd → good hd) (s : Slice) :
    Ends (Selection.Calls good) (fun _ => True) (sim.selectBounced stage s) := by
  have hunmarked (s : Slice) :
      Ends (Selection.Calls good) (fun _ => True) (sim.selectUnmarked stage s) := by
    rw [selectUnmarked_eq]
    split
    · next arm hfind => exact calls_readStruct sim (harms arm (List.mem_of_find?_eq_some hfind)) _ s
    · split
      · next hd hstage => exact Selection.calls_call (hfallback hd hstage) _
      · exact Selection.calls_swallowed
  unfold selectBounced
  split
  · have hskip : Ends (fun _ => True) (fun _ => True) (skip bounceMarkerBits s) := by
      cases skip bounceMarkerBits s <;> trivial
    exact hskip.bind fun rest _ => hunmarked rest
  · exact hunmarked s

/-- A comment is handed to the handler of its arm, or to whoever takes any. -/
theorem calls_comment {stage : Plan.CommentStage} (harms : ∀ arm ∈ stage.comments, good arm.handler)
    (hfallback : ∀ hd, stage.fallback = some hd → good hd) {s : Slice} {hd : Plan.Handler}
    {received : Received}
    (h : ((stage.comments.find? fun arm => arm.hash = s.hashText).map fun arm =>
        (arm.handler, .nothing)).or
      (if opcodeBits ≤ s.remaining then stage.fallback.map fun h => (h, .slice (s.drop opcodeBits))
      else none) = some (hd, received)) : good hd := by
  rcases Option.or_eq_some_iff.mp h with h | ⟨-, h⟩
  · obtain ⟨arm, hfind, heq⟩ := Option.map_eq_some_iff.mp h
    injection heq with hsame _
    exact hsame ▸ harms arm (List.mem_of_find?_eq_some hfind)
  · split at h
    · obtain ⟨hd', hfound, heq⟩ := Option.map_eq_some_iff.mp h
      injection heq with hsame _
      exact hsame ▸ hfallback hd' hfound
    · cases h

theorem calls_selectPlain (sim : Simulator) {p : Plan} (h : AllHandlers good p) (s : Slice) :
    Ends (Selection.Calls good) (fun _ => True) (sim.selectPlain p s) := by
  rw [selectPlain_eq]
  split
  · next arm hfind =>
    have hgood := h.opcodes arm (List.mem_of_find?_eq_some hfind)
    cases arm with
    | message name header reader hd => exact calls_readStruct sim hgood false s
    | empty hd => exact Selection.calls_call hgood _
  · have hcomment : Ends (fun choice => ∀ hd received, choice = some (hd, received) → good hd)
        (fun _ => True) (selectComment p.comments s.opcode s) := by
      by_cases hop : s.opcode = 0
      · cases hstage : p.comments with
        | none =>
          intro hd received heq
          cases heq
        | some stage =>
          rw [selectComment_of_eq_zero hop, commentReceiver_eq]
          intro hd received heq
          exact calls_comment (h.comments stage hstage).1 (h.comments stage hstage).2 heq
      · rw [selectComment_of_ne_zero hop]
        intro hd received heq
        cases heq
    cases hchoice : selectComment p.comments s.opcode s with
    | error e => trivial
    | ok choice =>
      rw [hchoice] at hcomment
      cases choice with
      | some called => exact Selection.calls_call (hcomment called.1 called.2 rfl) _
      | none =>
        show Selection.Calls good (selectAny p.fallback s)
        cases hfallback : p.fallback with
        | some hd => exact Selection.calls_call (h.fallback hd hfallback) _
        | none => exact Selection.calls_unhandled

/-- A plan calls nobody but its handlers. -/
theorem calls_selectIn (sim : Simulator) {p : Plan} (h : AllHandlers good p) (body : Cell)
    (isBounced : Bool) :
    Ends (Selection.Calls good) (fun _ => True) (sim.selectIn p body isBounced) := by
  unfold selectIn
  split
  · next stage hstage =>
    exact calls_selectBounced sim (h.bounced stage hstage).1 (h.bounced stage hstage).2 _
  · exact calls_selectPlain sim h _

/-- The handlers of a plan are those of its routes. -/
theorem allHandlers_ofRoutes (c : Contract) (d : Direction) {routes : List Plan.Route}
    (h : ∀ route ∈ routes, good route.handler) : AllHandlers good (Plan.ofRoutes c d routes) := by
  have hall : ∀ route ∈ (Plan.ofRoutes c d routes).routes, good route.handler :=
    fun route hroute => h route (Plan.routes_ofRoutes_subset hroute)
  obtain ⟨hbounced, hopcodes, hcomments, hfallback⟩ := Plan.forall_mem_routes.mp hall
  exact ⟨hbounced, hopcodes, hcomments, hfallback⟩

/-! ## Functions -/

/-- The receiver that a plan calls has the function that its handler names. -/
theorem exists_procedure_of_selectIn_eq_call {c : Contract} {registry : Registry} {sim : Simulator}
    (h : ofContract c registry = .ok sim) {d : Direction} {p : Plan}
    (hp : c.plan registry d = .ok p) {body : Cell} {isBounced : Bool} {hd : Plan.Handler}
    {received : Received} (hcall : sim.selectIn p body isBounced = .ok (.call hd received)) :
    ∃ procedure, sim.procedures[hd.receiver]? = some procedure ∧
      procedure.function = hd.function := by
  obtain ⟨-, routes, hroutes, rfl⟩ := Contract.plan_eq_ok_iff.mp hp
  let good (hd : Plan.Handler) : Prop := ∃ procedure, sim.procedures[hd.receiver]? = some procedure ∧
    procedure.function = hd.function
  have hgood : ∀ route ∈ routes, good route.handler := by
    intro route hmem
    obtain ⟨r, i, hr, hisRoute⟩ := Contract.exists_isRoute hroutes hmem
    obtain ⟨hindex, hfunction⟩ := hisRoute.handler_eq
    have hreceiver := (Contract.getElem?_of_mem_receiversFor hr).1
    obtain ⟨procedure, hprocedure, hproc⟩ := procedures_getElem? h hreceiver
    obtain ⟨function, payload, hfunction', -, -, rfl⟩ := Contract.procedure_of_getElem? hreceiver hproc
    exact ⟨_, hindex ▸ hprocedure, Except.ok.inj (hfunction'.symm.trans hfunction)⟩
  have hall : AllHandlers good (Plan.ofRoutes c d routes) := allHandlers_ofRoutes c d hgood
  have hcalls := calls_selectIn sim hall body isBounced
  rw [hcall] at hcalls
  exact hcalls hd received rfl

end Simulator
end MessageRouter
