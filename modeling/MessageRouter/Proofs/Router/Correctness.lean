import MessageRouter.Proofs.Router.Handlers
import MessageRouter.Proofs.Router.Stages
/-!
# `Proofs.Router.Correctness` — the text of a router chooses as the simulation does

* `Fits`: the readers of a plan read what the simulation reads, and its tags are hashes.
* `chooses_ofPlan`: what a router does, stage by stage, is what the plan chooses.
* `run_routerProgram`: the program of a router ends where the choice for a message ends it.
* `fits_ofRoutes`: the plans of a contract fit its simulator.
* `Program.text_of_plan`: the text that is written for a plan of a program that was read ends there too.
-/
namespace MessageRouter

open Code (Env Val Stop exec)
open Func (RouterStmt)

namespace Simulator

/-- The readers of a plan read what the simulation reads, and its tags are hashes. -/
structure Fits (p : Plan) (sim : Simulator) (registry : Registry) : Prop where
  bounced : ∀ stage, p.bounced = some stage → ∀ arm ∈ stage.arms,
    ∃ l, Reads sim registry arm.reader arm.handler arm.isPartial l
  opcodes : ∀ arm ∈ p.opcodes, ∀ name header reader hd, arm = .message name header reader hd →
    ∃ l, Reads sim registry reader hd false l
  tags : ∀ stage, p.comments = some stage → ∀ arm ∈ stage.comments, IsTag arm.hash

section Plans

variable {registry : Registry} {sim : Simulator} {p : Plan}
  {handle : (f : String) → (state : Record) → (args : List Val) → Except Stop Record}
  {state : Record} {s : Slice} {env : Env}

/-! ## Stages -/

variable (registry handle) in
/-- The comments of a plan, if it has any. -/
theorem exists_chooses_comments (hfits : Fits p sim registry) (h : Sees env state s)
    (hop : env.get? "op" = some (.int s.opcode)) :
    ∃ choice, selectComment p.comments s.opcode s = .ok choice ∧
      Chooses registry handle state ((p.comments.map RouterStmt.ofCommentStage).getD []) env
        (choice.map fun c => .ok (.call c.1 c.2)) env := by
  cases hstage : p.comments with
  | none => exact ⟨none, rfl, .nil env⟩
  | some stage =>
    have hchoice : Chooses registry handle state (RouterStmt.ofCommentStage stage) env _ env :=
      chooses_ofCommentStage (hfits.tags stage hstage) h hop
    -- the stage is behind a guard that the opcode is zero, which the choice tests as well
    by_cases hzero : s.opcode = 0
    · refine ⟨_, (selectComment_of_eq_zero hzero stage s).trans (commentReceiver_eq stage s), ?_⟩
      rw [if_pos hzero] at hchoice
      show Chooses registry handle state (RouterStmt.ofCommentStage stage) env _ env
      rw [Option.map_or, Option.map_map]
      by_cases hlen : opcodeBits ≤ s.remaining
      · rw [if_pos hlen] at hchoice ⊢
        rw [Option.map_map]
        exact hchoice
      · rw [if_neg hlen] at hchoice ⊢
        exact hchoice
    · refine ⟨none, selectComment_of_ne_zero hzero _ s, ?_⟩
      rw [if_neg hzero] at hchoice
      exact hchoice

/-- Messages that are not bounced go through the stages after the first. -/
theorem chooses_plain (hfits : Fits p sim registry) (h : Sees env state s) :
    Chooses registry handle state
      (RouterStmt.parseOpcode ++ p.opcodes.flatMap RouterStmt.ofOpcodeArm ++
        (p.comments.map RouterStmt.ofCommentStage).getD [] ++ RouterStmt.ofFallback p.fallback) env
      (some (sim.selectPlain p s)) env := by
  have hsees := h.declare (n := "op") (by decide) (by decide) (.int s.opcode)
  have hop : (env.declare "op" (.int s.opcode)).get? "op" = some (.int s.opcode) := by
    rw [Env.get?_declare, if_pos rfl]
  have harms : Chooses registry handle state (p.opcodes.flatMap RouterStmt.ofOpcodeArm) _
      (p.opcodes.findSome? fun arm =>
        if isFor s.opcode s arm then some (sim.selectOpcode arm s) else none) _ :=
    .flatMap fun arm harm => chooses_ofOpcodeArm (hfits.opcodes arm harm) hsees hop
  obtain ⟨choice, hselect, hcomments⟩ := exists_chooses_comments registry handle hfits hsees hop
  rw [findSome?_ite] at harms
  have hall := (((chooses_parseOpcode h).append fun _ => harms).append fun _ => hcomments).append
    fun _ => chooses_ofFallback hsees p.fallback
  rw [selectPlain_eq, hselect]
  -- an arm ends the router, and without one the stages after it are asked
  cases hfind : p.opcodes.find? (isFor s.opcode s) with
  | some arm =>
    rw [hfind] at hall
    exact hall
  | none =>
    rw [hfind] at hall
    cases choice <;> exact hall

/-- A router goes through its stages as the simulation goes through those of the plan. -/
theorem chooses_ofPlan (hfits : Fits p sim registry) {body : Cell} {isBounced : Bool}
    (h : Sees env state (Slice.ofCell body))
    (hbounced : p.bounced ≠ none → env.get? "msg_bounced" = some (.ofBool isBounced)) :
    Chooses registry handle state (RouterStmt.ofPlan p) env
      (some (sim.selectIn p body isBounced)) env := by
  have hplain : Chooses registry handle state _ env (some (sim.selectPlain p (Slice.ofCell body))) env :=
    chooses_plain hfits h
  have hassoc : RouterStmt.ofPlan p = (p.bounced.map RouterStmt.ofBounceStage).getD [] ++
      (RouterStmt.parseOpcode ++ p.opcodes.flatMap RouterStmt.ofOpcodeArm ++
        (p.comments.map RouterStmt.ofCommentStage).getD [] ++ RouterStmt.ofFallback p.fallback) := by
    simp only [RouterStmt.ofPlan, List.append_assoc]
  rw [hassoc]
  unfold selectIn
  cases hstage : p.bounced with
  | none => exact hplain
  | some stage =>
    have hflag := hbounced (by rw [hstage]; exact nofun)
    have hchoice : Chooses registry handle state (RouterStmt.ofBounceStage stage) env _ env :=
      chooses_ofBounceStage (hfits.bounced stage hstage) h hflag
    have hall := hchoice.append fun _ => hplain
    cases isBounced <;> exact hall

end Plans

/-! ## Routers -/

/-- What a router is called on. -/
def routerArguments (d : Direction) (state : Record) (body : Cell) (isBounced : Bool) : List Val :=
  [.struct state, .slice (Slice.ofCell body)] ++
    match d with
    | .internal => [.ofBool isBounced]
    | .external => []

/-- The program of a router ends where the choice of its plan ends it. -/
theorem run_routerProgram {registry : Registry} {sim : Simulator} {p : Plan}
    (hfits : Fits p sim registry) (hbounced : p.bounced ≠ none → p.direction = .internal)
    (handle : (f : String) → (state : Record) → (args : List Val) → Except Stop Record)
    (state : Record) (body : Cell) (isBounced : Bool) :
    (Func.routerProgram p).run (.ofRegistry registry handle)
        (routerArguments p.direction state body isBounced) =
      Selection.ending handle state (sim.selectIn p body isBounced) := by
  have hlength : (Func.routerNames p.direction).length =
      (routerArguments p.direction state body isBounced).length := by
    cases p.direction <;> rfl
  have hsees : Sees [(Func.routerNames p.direction).zip
      (routerArguments p.direction state body isBounced)] state (Slice.ofCell body) := by
    cases p.direction <;> exact ⟨rfl, rfl⟩
  -- only the router of messages from contracts has a flag
  have hflag : p.bounced ≠ none → Env.get? [(Func.routerNames p.direction).zip
      (routerArguments p.direction state body isBounced)] "msg_bounced" = some (.ofBool isBounced) := by
    intro hne
    rw [hbounced hne]
    rfl
  have hexec : exec (.ofRegistry registry handle) (Func.routerProgram p).body _ = _ :=
    chooses_ofPlan hfits hsees hflag
  rw [Code.Function.run]
  show (if (Func.routerNames p.direction).length = _ then exec _ (Func.routerProgram p).body
    [(Func.routerNames p.direction).zip _] >>= _ else _) = _
  rw [if_pos hlength, hexec]
  show (Except.map _ (Selection.ending handle state _) >>= _) = _
  cases Selection.ending handle state (sim.selectIn p body isBounced) <;> rfl

/-! ## Plans of a contract -/

theorem isTag_of_tag {text hash : String} {loc : Option Span} (h : Comment.tag text loc = .ok hash) :
    IsTag hash := by
  obtain ⟨cell, -, rfl⟩ := Contract.exists_cell_of_tag h
  exact ⟨cell.hash, Cell.length_hash cell, rfl⟩

section Contracts

variable {c : Contract} {registry : Registry} {sim : Simulator} {d : Direction}
  {routes : List Plan.Route} {p : Plan}

/-- The reader of a message type and the simulation agree on what the type's receiver gets. -/
theorem reads_of_layout (hregistry : registry.WellFormed) (h : ofContract c registry = .ok sim)
    {r : Receiver} {i : Nat} (hr : c.receivers[i]? = some r) {name : String}
    (hname : r.selector.message? = some name) {l : Layout} (hl : registry.layout name = .ok l)
    (isPartial : Bool) (f : String) :
    Reads sim registry (Plan.readerName l.message.name isPartial) ⟨i, f⟩ isPartial l where
  reader := registry.reader?_readerName hregistry hl isPartial
  readStruct s := readStruct_eq_readLayout h hr hname hl isPartial s

/-- The plans of a contract fit its simulator. -/
theorem fits_ofRoutes (hregistry : registry.WellFormed) (h : ofContract c registry = .ok sim)
    (hroutes : c.routes registry d = .ok routes) : Fits (Plan.ofRoutes c d routes) sim registry := by
  have hroute : ∀ route ∈ (Plan.ofRoutes c d routes).routes,
      ∃ r i, c.receivers[i]? = some r ∧ c.IsRoute registry r i route := by
    intro route hmem
    obtain ⟨r, i, hr, hisRoute⟩ := Contract.exists_isRoute hroutes (Plan.routes_ofRoutes_subset hmem)
    exact ⟨r, i, (Contract.getElem?_of_mem_receiversFor hr).1, hisRoute⟩
  -- the receiver that an arm is the route of gives the reader or the tag
  obtain ⟨hbounced, hopcodes, hcomments, -⟩ := Plan.forall_mem_routes.mp hroute
  constructor
  · intro stage hstage arm harm
    obtain ⟨r, i, hr, hisRoute⟩ := (hbounced stage hstage).1 arm harm
    cases hisRoute with
    | bounced hs hl hf => exact ⟨_, reads_of_layout hregistry h hr (by rw [hs]; rfl) hl _ _⟩
  · rintro arm harm name header reader hd rfl
    obtain ⟨r, i, hr, hisRoute⟩ := hopcodes _ harm
    cases hisRoute with
    | message hs hl hf => exact ⟨_, reads_of_layout hregistry h hr (by rw [hs]; rfl) hl _ _⟩
  · intro stage hstage arm harm
    obtain ⟨r, i, hr, hisRoute⟩ := (hcomments stage hstage).1 arm harm
    cases hisRoute with
    | comment hs ht hf => exact isTag_of_tag ht

/-- A message is chosen for by the plan of its direction, also where the simulator needs none. -/
theorem select_eq_selectIn (h : ofContract c registry = .ok sim) (hp : c.plan registry d = .ok p)
    (body : Cell) (isBounced : Bool) :
    sim.select d body isBounced = sim.selectIn p body isBounced := by
  unfold select
  cases hplan : sim.plan? d with
  | some p' =>
    obtain rfl : p = p' := Except.ok.inj (hp.symm.trans (plan_of_plan? h hplan))
    rfl
  | none =>
    obtain ⟨rfl, hnone⟩ :=
      Contract.receiversFor_of_hasRouter_eq_false (hasRouter_of_plan?_eq_none h hplan)
    obtain ⟨-, routes, hroutes, rfl⟩ := Contract.plan_eq_ok_iff.mp hp
    have hall := Contract.forall₂_of_routes_eq_ok hroutes
    rw [hnone] at hall
    obtain rfl := List.forall₂_nil_left_iff.mp hall
    have hplain : sim.selectIn (Plan.ofRoutes c .external []) body isBounced =
      sim.selectPlain (Plan.ofRoutes c .external []) (Slice.ofCell body) := rfl
    rw [hplain, selectPlain_eq]
    rfl

end Contracts
end Simulator

open Simulator

/-- The router that is written for a plan of a program that was read means what the simulation does: it calls the
function of the receiver that the simulation calls, on the same, or nobody where the simulation calls nobody, tells
alike whether the message was handled, and exits alike where the simulation exits before it calls anyone. This is
so whatever the receivers do to the state. -/
theorem Program.text_of_plan {doc : Json} {prog : Program} (hprog : Program.ofJson doc = .ok prog)
    {c : Contract} (hc : c ∈ prog.contracts) {sim : Simulator}
    (h : ofContract c prog.registry = .ok sim) {d : Direction} {p : Plan}
    (hp : c.plan prog.registry d = .ok p) (emitComments : Bool) (w : Func.Writer) :
    ∃ text f, (Func.writeRouter emitComments p w).text = w.text ++ text ∧
      Code.Function.ofText? text = some f ∧ f.name = p.function ∧
      ∀ (state : Record) (body : Cell) (isBounced : Bool),
        sim.deliver d state body isBounced = sim.select d body isBounced >>= sim.answer state ∧
        (∀ hd received, sim.select d body isBounced = .ok (.call hd received) →
          ∃ procedure, sim.procedures[hd.receiver]? = some procedure ∧
            procedure.function = hd.function) ∧
        ∀ handle : (f : String) → (state : Record) → (args : List Code.Val) →
            Except Code.Stop Record,
          f.run (.ofRegistry prog.registry handle) (routerArguments d state body isBounced) =
            Selection.ending handle state (sim.select d body isBounced) := by
  have hwellFormed := Program.wellFormed_of_ofJson hprog
  obtain ⟨text, htext, hread⟩ := Func.exists_routerText_of_plan hwellFormed.registry
    (hwellFormed.contracts c hc) hp emitComments w
  refine ⟨text, _, htext, hread, rfl, fun state body isBounced => ⟨deliver_eq_select .., ?_, ?_⟩⟩
  · intro hd received hcall
    rw [select_eq_selectIn h hp] at hcall
    exact exists_procedure_of_selectIn_eq_call h hp hcall
  · -- the text is the router of the plan, and the plan chooses as the simulation does
    intro handle
    rw [select_eq_selectIn h hp]
    obtain ⟨-, routes, hroutes, rfl⟩ := Contract.plan_eq_ok_iff.mp hp
    refine run_routerProgram (fits_ofRoutes hwellFormed.registry h hroutes) ?_ handle state body
      isBounced
    cases d with
    | internal => exact fun _ => rfl
    | external => exact fun hne => absurd rfl hne

/-- The router of the counter calls the receiver of the empty message for it, and the other one for a message of
40 bits. -/
theorem Program.text_of_plan_counter :
    ∃ p text f, Contract.counter.plan .empty .internal = .ok p ∧
      (Func.writeRouter true p .empty).text = "" ++ text ∧ Code.Function.ofText? text = some f ∧
      ∀ handle state,
        f.run (.ofRegistry .empty handle) [.struct state, .slice (Slice.ofCell .empty), .int 0] =
          (handle "$Counter$_internal_empty" state []).map (answerOf · true) ∧
        f.run (.ofRegistry .empty handle)
            [.struct state, .slice ⟨List.replicate 40 true, []⟩, .int 0] =
          (handle "$Counter$_internal_any" state [.slice ⟨List.replicate 40 true, []⟩]).map
            (answerOf · true) := by
  obtain ⟨text, f, htext, hread, -, hrun⟩ :=
    text_of_plan ofJson_counterDocument List.mem_cons_self rfl (d := .internal) rfl true .empty
  refine ⟨_, text, f, rfl, htext, hread, fun handle state => ⟨?_, ?_⟩⟩
  · exact (hrun state .empty false).2.2 handle
  · exact (hrun state (.mk (List.replicate 40 true) []) false).2.2 handle

end MessageRouter
