import MessageRouter.Contract.Plan
import MessageRouter.Func.Function
/-!
# `Func.Router` — the generated function of a router

* `RouterStmt`: what a router does, as nested statements.
* `RouterStmt.ofPlan`: the statements that go through the stages of a plan.
* `RouterStmt.write`, `writeRouter`: their lines, with or without remarks.
-/
namespace MessageRouter
namespace Func

/-- What a router hands to a receiver. -/
inductive Argument where
  | nothing
  /-- The struct that was read last. -/
  | struct
  /-- What is left of the message. -/
  | rest
  /-- What is left of the message after the opcode. -/
  | restAfterOpcode
  deriving DecidableEq, Repr

/-- What a router asks about a message. -/
inductive Question where
  | isBounced
  /-- Whether there are enough bits for an opcode. -/
  | hasOpcode
  | opcodeIs (header : Header)
  /-- Whether the opcode is zero and nothing follows it. -/
  | isEmpty
  | opcodeIsZero
  | commentIs (hash : String)
  deriving DecidableEq, Repr

/-- What a router does. -/
inductive RouterStmt where
  | remark (text : String)
  | blank
  /-- The opcode is zero unless it is there. -/
  | declareOpcode
  | peekOpcode
  | skipMarker
  | readStruct (reader : String)
  | hashMessage
  /-- A receiver gets the state and gives it back. -/
  | call (function : String) (argument : Argument)
  /-- The end, with whether the message was handled. -/
  | answer (handled : Bool)
  | branch (question : Question) (body : List RouterStmt)

/-! ## Text -/

def Argument.text : Argument → String
  | nothing => ""
  | struct => "msg"
  | rest => "in_msg"
  | restAfterOpcode => "in_msg.skip_bits(" ++ toString opcodeBits ++ ")"

def Question.text : Question → String
  | isBounced => "msg_bounced"
  | hasOpcode => "slice_bits(in_msg) >= " ++ toString opcodeBits
  | opcodeIs header => "op == " ++ header.opcode
  | isEmpty => "(op == 0) & (slice_bits(in_msg) <= " ++ toString opcodeBits ++ ")"
  | opcodeIsZero => "op == 0"
  | commentIs hash => "text_op == 0x" ++ hash

namespace RouterStmt

mutual

/-- The lines of a statement. -/
def write (emitComments : Bool) (s : RouterStmt) (w : Writer) : Writer :=
  match s with
  | remark text => Function.writeRemark emitComments text w
  | blank => w.blank
  | declareOpcode => w.line "int op = 0;"
  | peekOpcode => w.line ("op = in_msg.preload_uint(" ++ toString opcodeBits ++ ");")
  | skipMarker => w.line ("in_msg~skip_bits(" ++ toString bounceMarkerBits ++ ");")
  | readStruct reader => w.line ("var msg = in_msg~" ++ reader ++ "();")
  | hashMessage => w.line "var text_op = slice_hash(in_msg);"
  | call function argument => w.line ("self~" ++ function ++ "(" ++ argument.text ++ ");")
  | answer handled => w.line ("return (self, " ++ toString handled ++ ");")
  | branch question body =>
    w.block ("if (" ++ question.text ++ ")") fun w => writeAll emitComments body w

/-- The lines of some statements. -/
def writeAll (emitComments : Bool) (body : List RouterStmt) (w : Writer) : Writer :=
  match body with
  | [] => w
  | s :: rest => writeAll emitComments rest (write emitComments s w)

end

/-! ## Stages -/

/-- Finds the opcode. -/
def parseOpcode : List RouterStmt :=
  [remark "Parse op", declareOpcode, branch .hasOpcode [peekOpcode]]

/-- Hands the message to a receiver. -/
def handle (h : Plan.Handler) (argument : Argument) : List RouterStmt :=
  [call h.function argument, answer true]

/-- Reads a struct and hands it to a receiver. -/
def handleStruct (reader : String) (h : Plan.Handler) : List RouterStmt :=
  readStruct reader :: handle h .struct

def ofBounceArm (arm : Plan.BounceArm) : List RouterStmt :=
  [remark ("Bounced message " ++ arm.message),
    branch (.opcodeIs arm.header) (handleStruct arm.reader arm.handler)]

/-- Bounced messages end here, whether a receiver gets them or not. -/
def ofBounceFallback : Option Plan.Handler → List RouterStmt
  | some h => remark "Fallback bounce receiver" :: handle h .rest
  | none => [answer true]

def ofBounceStage (stage : Plan.BounceStage) : List RouterStmt :=
  [remark "Handle bounced messages",
    branch .isBounced
      ((if stage.skipsMarker then [remark "Skip 0xFFFFFFFF", skipMarker] else []) ++
        (if stage.arms.isEmpty then [] else parseOpcode) ++
        stage.arms.flatMap ofBounceArm ++
        ofBounceFallback stage.fallback),
    blank]

def ofOpcodeArm : Plan.OpcodeArm → List RouterStmt
  | .message name header reader handler =>
    [blank, remark ("Receive " ++ name ++ " message"),
      branch (.opcodeIs header) (handleStruct reader handler)]
  | .empty handler => [blank, remark "Receive empty message", branch .isEmpty (handle handler .nothing)]

def ofCommentArm (arm : Plan.CommentArm) : List RouterStmt :=
  [remark ("Receive " ++ Text.quoted arm.text ++ " message"),
    branch (.commentIs arm.hash) (handle arm.handler .nothing)]

/-- Comments that no arm is for. -/
def ofCommentFallback : Option Plan.Handler → List RouterStmt
  | some h => [remark "Receive any text message", branch .hasOpcode (handle h .restAfterOpcode)]
  | none => []

def ofCommentStage (stage : Plan.CommentStage) : List RouterStmt :=
  [blank, remark "Text Receivers",
    branch .opcodeIsZero
      ((if stage.comments.isEmpty then [] else [hashMessage]) ++
        stage.comments.flatMap ofCommentArm ++
        ofCommentFallback stage.fallback)]

/-- Messages that no stage is for. -/
def ofFallback : Option Plan.Handler → List RouterStmt
  | some h => blank :: remark "Receiver fallback" :: handle h .rest
  | none => [blank, answer false]

/-- What the router of a plan does. -/
def ofPlan (p : Plan) : List RouterStmt :=
  (p.bounced.map ofBounceStage).getD [] ++ parseOpcode ++ p.opcodes.flatMap ofOpcodeArm ++
    (p.comments.map ofCommentStage).getD [] ++ ofFallback p.fallback

end RouterStmt

/-! ## Routers -/

/-- The parameters of a router; only messages from other contracts can be bounced. -/
def routerParameters (p : Plan) : List String :=
  [stackType p.stateFields ++ " self", "slice in_msg"] ++
    match p.direction with
    | .internal => ["int msg_bounced"]
    | .external => []

/-- The line that opens a router. -/
def routerHeader (p : Plan) : String :=
  "(" ++ stackType p.stateFields ++ ", int) " ++ p.function ++ tuple (routerParameters p) ++
    " impure inline_ref"

/-- The lines of a router. -/
def writeRouter (emitComments : Bool) (p : Plan) (w : Writer) : Writer :=
  w.block (routerHeader p) (RouterStmt.writeAll emitComments (RouterStmt.ofPlan p))

end Func
end MessageRouter
