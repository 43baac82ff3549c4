import MessageRouter.Contract.Procedure
import MessageRouter.Contract.Slot
import MessageRouter.Func.Shape
/-!
# `Contract.Plan` — routers as stages

A router passes a message through stages in a fixed order: bounced messages, opcodes and the empty message in
the order of declaration, comments, and the receiver of any message.

* `Plan`: the stages, each with the receivers that it calls.
* `Contract.plan`: the plan of a contract for one direction.
* `Contract.plans`: the plans of some directions; the internal router is always there, the external one
  where the contract receives external messages.
* `Plan.toJson`: the plan as JSON.
-/
namespace MessageRouter

/-- A receiver to call, by its index and by its function. -/
structure Plan.Handler where
  receiver : Nat
  function : String
  deriving DecidableEq, Repr

/-- Bounced messages of one opcode. -/
structure Plan.BounceArm where
  message : String
  header : Header
  reader : String
  isPartial : Bool
  handler : Plan.Handler
  deriving DecidableEq, Repr

/-- The stage of bounced messages. -/
structure Plan.BounceStage where
  arms : List Plan.BounceArm
  fallback : Option Plan.Handler
  deriving DecidableEq, Repr

/-- Messages of one opcode, or the empty message. -/
inductive Plan.OpcodeArm where
  | message (name : String) (header : Header) (reader : String) (handler : Plan.Handler)
  | empty (handler : Plan.Handler)
  deriving DecidableEq, Repr

/-- Comments of one text; `hash` is its tag. -/
structure Plan.CommentArm where
  text : String
  hash : String
  handler : Plan.Handler
  deriving DecidableEq, Repr

/-- The stage of comments. -/
structure Plan.CommentStage where
  comments : List Plan.CommentArm
  fallback : Option Plan.Handler
  deriving DecidableEq, Repr

/-- The stages of a router. -/
structure Plan where
  contract : String
  direction : Direction
  function : String
  stateFields : List Field
  /-- There for internal messages only. -/
  bounced : Option Plan.BounceStage
  opcodes : List Plan.OpcodeArm
  comments : Option Plan.CommentStage
  fallback : Option Plan.Handler

namespace Plan

/-- The marker in front of a bounced message is skipped where some receiver looks at what follows it. -/
def BounceStage.skipsMarker (s : BounceStage) : Bool := !s.arms.isEmpty || s.fallback.isSome

def OpcodeArm.handler : OpcodeArm → Handler
  | .message _ _ _ handler | .empty handler => handler

/-- The name of the function that reads a message. -/
def readerName (message : String) (isPartial : Bool) : String :=
  if isPartial then Func.Name.bouncedReader message else Func.Name.reader message

/-! ## Building -/

/-- Where a receiver stands in a plan. -/
inductive Route where
  | opcode (arm : OpcodeArm)
  | comment (arm : CommentArm)
  | anyComment (handler : Handler)
  | any (handler : Handler)
  | bounced (arm : BounceArm)
  | anyBounced (handler : Handler)
  deriving DecidableEq, Repr

namespace Route

def opcode? : Route → Option OpcodeArm
  | opcode arm => some arm
  | _ => none

def comment? : Route → Option CommentArm
  | comment arm => some arm
  | _ => none

def anyComment? : Route → Option Handler
  | anyComment handler => some handler
  | _ => none

def any? : Route → Option Handler
  | any handler => some handler
  | _ => none

def bounced? : Route → Option BounceArm
  | bounced arm => some arm
  | _ => none

def anyBounced? : Route → Option Handler
  | anyBounced handler => some handler
  | _ => none

end Route

/-- Of several comments with one tag, the first. -/
def firstOfTag : List CommentArm → List CommentArm
  | [] => []
  | arm :: rest => arm :: (firstOfTag rest).filter (·.hash ≠ arm.hash)

theorem firstOfTag_subset (arms : List CommentArm) : firstOfTag arms ⊆ arms := by
  induction arms with
  | nil => exact List.Subset.refl []
  | cons arm rest ih =>
    intro a ha
    rcases List.mem_cons.mp ha with rfl | ha
    · exact List.mem_cons_self
    · exact List.mem_cons_of_mem _ (ih (List.mem_filter.mp ha).1)

/-- No two of the comments that are left have one tag. -/
theorem firstOfTag_pairwise (arms : List CommentArm) :
    (firstOfTag arms).Pairwise fun a b => a.hash ≠ b.hash := by
  induction arms with
  | nil => exact List.Pairwise.nil
  | cons arm rest ih =>
    refine List.Pairwise.cons (fun b hb => ?_) (ih.filter _)
    have := (List.mem_filter.mp hb).2
    exact fun h => (of_decide_eq_true this) h.symm

/-- The stage of comments, if there is anything in it. -/
def commentStage (comments : List CommentArm) (fallback : Option Handler) : Option CommentStage :=
  if comments.isEmpty && fallback.isNone then none else some ⟨comments, fallback⟩

end Plan

namespace Contract

/-- Where a receiver stands in the plan of its direction. -/
def route (c : Contract) (registry : Registry) (r : Receiver) (index : Nat) :
    Except Fault Plan.Route := do
  let handler : Plan.Handler := ⟨index, ← c.functionName r⟩
  let layout (name : String) : Except Fault Layout :=
    (registry.layout name).mapError fun cause => .ofCause (.layout cause)
  match r.selector with
  | .message _ name _ =>
    let l ← layout name
    return .opcode (.message name l.header (Plan.readerName l.message.name false) handler)
  | .empty _ => return .opcode (.empty handler)
  | .comment _ text =>
    let hash ← (Comment.tag text r.loc).mapError .ofComment
    return .comment ⟨text, hash, handler⟩
  | .anyComment .. => return .anyComment handler
  | .any .. => return .any handler
  | .bounced name _ isPartial =>
    let l ← layout name
    return .bounced ⟨name, l.header, Plan.readerName l.message.name isPartial, isPartial, handler⟩
  | .anyBounced _ => return .anyBounced handler

/-- The routes of the receivers of a direction. -/
def routes (c : Contract) (registry : Registry) (d : Direction) : Except Fault (List Plan.Route) :=
  (c.receiversFor d).mapM fun (r, index) =>
    (c.route registry r index).mapError (Fault.atReceiver c.name index)

/-- The plan of a contract for one direction. -/
def plan (c : Contract) (registry : Registry) (d : Direction) : Except Fault Plan := do
  c.checkSlots registry d
  let routes ← c.routes registry d
  return {
    contract := c.name
    direction := d
    function := Func.Name.router c.name d
    stateFields := c.fields
    bounced :=
      match d with
      | .internal =>
        some ⟨routes.filterMap Plan.Route.bounced?, routes.findSome? Plan.Route.anyBounced?⟩
      | .external => none
    opcodes := routes.filterMap Plan.Route.opcode?
    comments :=
      Plan.commentStage (Plan.firstOfTag (routes.filterMap Plan.Route.comment?))
        (routes.findSome? Plan.Route.anyComment?)
    fallback := routes.findSome? Plan.Route.any? }

/-- Whether a contract has a router for a direction. -/
def hasRouter (c : Contract) (d : Direction) : Bool := d = .internal || c.receives d

/-- The plans of a contract for those of its routers that `wanted` asks for. -/
def plans (c : Contract) (registry : Registry) (wanted : Direction → Bool) :
    Except Fault (List Plan) :=
  (Direction.all.filter fun d => wanted d && c.hasRouter d).mapM (c.plan registry)

end Contract

/-! ## JSON -/

namespace Plan

def Handler.toJson (h : Handler) : Json :=
  .object [("receiver", .nat h.receiver), ("function", .string h.function)]

/-- A handler, or `null` for none. -/
def handlerJson : Option Handler → Json := Json.ofOption Handler.toJson

/-- The number of an opcode and how generated code writes it. -/
def opcodeMembers (h : Header) : List (String × Json) :=
  [("header", .nat h.value.toNat), ("opcode", .string h.opcode)]

def BounceArm.toJson (a : BounceArm) : Json :=
  .object ([("message", .string a.message)] ++ opcodeMembers a.header ++
    [("reader", .string a.reader), ("partial", .bool a.isPartial), ("handler", a.handler.toJson)])

def BounceStage.toJson (s : BounceStage) : Json :=
  .object [("skip_marker", .bool s.skipsMarker), ("arms", .array (s.arms.map BounceArm.toJson)),
    ("fallback", handlerJson s.fallback)]

def OpcodeArm.toJson : OpcodeArm → Json
  | .message name header reader handler =>
    .object ([("kind", .string "binary"), ("message", .string name)] ++ opcodeMembers header ++
      [("reader", .string reader), ("handler", handler.toJson)])
  | .empty handler => .object [("kind", .string "empty"), ("handler", handler.toJson)]

def CommentArm.toJson (a : CommentArm) : Json :=
  .object [("text", .string a.text), ("hash", .string a.hash), ("handler", a.handler.toJson)]

def CommentStage.toJson (s : CommentStage) : Json :=
  .object [("comments", .array (s.comments.map CommentArm.toJson)),
    ("fallback", handlerJson s.fallback)]

/-- The plan as JSON. -/
def toJson (p : Plan) : Json :=
  .object [("contract", .string p.contract), ("direction", .string p.direction.name),
    ("function", .string p.function), ("state_type", .string (Func.stackType p.stateFields)),
    ("bounced", Json.ofOption BounceStage.toJson p.bounced),
    ("opcode_arms", .array (p.opcodes.map OpcodeArm.toJson)),
    ("text", Json.ofOption CommentStage.toJson p.comments),
    ("fallback", handlerJson p.fallback)]

end Plan
end MessageRouter
