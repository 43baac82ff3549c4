import MessageRouter.Proofs.Router.Text
/-!
# `Proofs.Router.Calls` — whom a router calls

* `Plan.Route.passed`: what a receiver gets on a route besides the state.
* `Code.Function.calls`: the functions that a program calls on the state.
* `Func.calls_routerProgram`: the text of a router calls the receivers on the routes of its plan.
-/
namespace MessageRouter

/-! ## What is handed over -/

namespace Plan

/-- What a receiver gets from a router besides the state. -/
inductive Passed where
  | nothing
  | struct (message : String) (isPartial : Bool)
  | slice
  deriving DecidableEq, Repr

/-- The number of arguments that this takes. -/
def Passed.count : Passed → Nat
  | nothing => 0
  | struct .. | slice => 1

/-- What a receiver gets on a route. -/
def Route.passed : Route → Passed
  | opcode (.message name ..) => .struct name false
  | opcode (.empty _) | comment _ => .nothing
  | bounced arm => .struct arm.message arm.isPartial
  | anyComment _ | any _ | anyBounced _ => .slice

end Plan

/-! ## Calls in programs -/

namespace Code

mutual

/-- The functions that a statement calls on the state, with the number of other arguments. -/
def Stmt.calls : Stmt → List (String × Nat)
  | .modify _ target f args => if target = "self" then [(f, args.length)] else []
  | .branch _ thenBody elseBody => callsAll thenBody ++ callsAll elseBody
  | .declare .. | .assign .. | .throw _ | .ret _ => []

/-- The functions that some statements call on the state. -/
def callsAll : List Stmt → List (String × Nat)
  | [] => []
  | s :: rest => s.calls ++ callsAll rest

end

def Function.calls (f : Function) : List (String × Nat) := callsAll f.body

theorem callsAll_append (ss tt : List Stmt) : callsAll (ss ++ tt) = callsAll ss ++ callsAll tt := by
  induction ss with
  | nil => rfl
  | cons s rest ih => rw [List.cons_append, callsAll, callsAll, ih, List.append_assoc]

end Code

/-! ## Calls of routers -/

namespace Func
namespace RouterStmt

/-- The functions that a router calls on the state. -/
def calls (ss : List RouterStmt) : List (String × Nat) := Code.callsAll (codeAll ss)

theorem calls_append (ss tt : List RouterStmt) : calls (ss ++ tt) = calls ss ++ calls tt := by
  rw [calls, codeAll_append, Code.callsAll_append]
  rfl

theorem calls_remark (text : String) (ss : List RouterStmt) : calls (remark text :: ss) = calls ss := rfl

theorem calls_blank (ss : List RouterStmt) : calls (blank :: ss) = calls ss := rfl

theorem calls_branch (question : Question) (body ss : List RouterStmt) :
    calls (branch question body :: ss) = calls body ++ calls ss := by
  show (Code.callsAll (codeAll body) ++ []) ++ _ = _
  rw [List.append_nil]
  rfl

/-- The call on a route. -/
def callOf (route : Plan.Route) : String × Nat := (route.handler.function, route.passed.count)

/-- One call for each arm of a stage. -/
theorem calls_arms {α : Type} {f : α → List RouterStmt} {make : α → Plan.Route}
    (h : ∀ x, calls (f x) = [callOf (make x)]) (xs : List α) :
    calls (xs.flatMap f) = (xs.map make).map callOf := by
  induction xs with
  | nil => rfl
  | cons x rest ih => rw [List.flatMap_cons, calls_append, h, ih, List.map_cons, List.map_cons,
      List.singleton_append]

theorem calls_ofBounceStage (stage : Plan.BounceStage) :
    calls (ofBounceStage stage) = stage.routes.map callOf := by
  have hopen : calls ((if stage.skipsMarker then [remark "Skip 0xFFFFFFFF", skipMarker] else []) ++
      (if stage.arms.isEmpty then [] else parseOpcode)) = [] := by
    split <;> split <;> rfl
  have hfallback : calls (ofBounceFallback stage.fallback) =
      (stage.fallback.toList.map Plan.Route.anyBounced).map callOf := by
    cases stage.fallback <;> rfl
  have harms : calls (stage.arms.flatMap ofBounceArm) = (stage.arms.map Plan.Route.bounced).map callOf :=
    calls_arms (fun _ => rfl) _
  rw [ofBounceStage, calls_remark, calls_branch, calls_append, calls_append, hopen, harms, hfallback,
    Plan.BounceStage.routes, List.map_append]
  exact List.append_nil _

theorem calls_ofCommentStage (stage : Plan.CommentStage) :
    calls (ofCommentStage stage) = stage.routes.map callOf := by
  have hopen : calls (if stage.comments.isEmpty then [] else [hashMessage]) = [] := by
    split <;> rfl
  have hfallback : calls (ofCommentFallback stage.fallback) =
      (stage.fallback.toList.map Plan.Route.anyComment).map callOf := by
    cases stage.fallback <;> rfl
  have harms : calls (stage.comments.flatMap ofCommentArm) =
      (stage.comments.map Plan.Route.comment).map callOf :=
    calls_arms (fun _ => rfl) _
  rw [ofCommentStage, calls_blank, calls_remark, calls_branch, calls_append, calls_append, hopen, harms,
    hfallback, Plan.CommentStage.routes, List.map_append]
  exact List.append_nil _

theorem calls_ofPlan (p : Plan) : calls (ofPlan p) = p.routes.map callOf := by
  have hbounced : calls ((p.bounced.map ofBounceStage).getD []) =
      (p.bounced.toList.flatMap Plan.BounceStage.routes).map callOf := by
    cases p.bounced with
    | none => rfl
    | some stage => simpa using calls_ofBounceStage stage
  have hcomments : calls ((p.comments.map ofCommentStage).getD []) =
      (p.comments.toList.flatMap Plan.CommentStage.routes).map callOf := by
    cases p.comments with
    | none => rfl
    | some stage => simpa using calls_ofCommentStage stage
  have hopcodes : calls (p.opcodes.flatMap ofOpcodeArm) = (p.opcodes.map Plan.Route.opcode).map callOf :=
    calls_arms (fun arm => by cases arm <;> rfl) _
  have hfallback : calls (ofFallback p.fallback) =
      (p.fallback.toList.map Plan.Route.any).map callOf := by
    cases p.fallback <;> rfl
  have hopcode : calls parseOpcode = [] := rfl
  rw [ofPlan, calls_append, calls_append, calls_append, calls_append, hbounced, hcomments, hopcodes,
    hfallback, hopcode, List.append_nil, Plan.routes, List.map_append, List.map_append, List.map_append]

end RouterStmt

/-- The text of a router calls the receivers on the routes of its plan, each with what it gets on its route. -/
theorem calls_routerProgram (p : Plan) :
    (routerProgram p).calls =
      p.routes.map fun route => (route.handler.function, route.passed.count) :=
  RouterStmt.calls_ofPlan p

end Func
end MessageRouter
