import MessageRouter.Contract.Plan
import MessageRouter.Simulator.Frame
/-!
# `Simulator.Basic` — messages delivered to a contract

* `Simulator.ofContract`: the plans and procedures of a contract.
* `Outcome`: the state after a message, whether it was handled and by which receiver.
* `Simulator.deliver`: a message goes through the stages of the plan for its direction.
-/
namespace MessageRouter

/-- A contract ready to receive messages. -/
structure Simulator where
  registry : Registry
  plans : List Plan
  /-- One for each receiver, in the order of their declaration. -/
  procedures : List Procedure

namespace Simulator

/-- The state after a message, whether it was handled and by which receiver. -/
structure Outcome where
  state : Record
  handled : Bool
  receiver : Option Nat

/-- The plans and procedures of a contract. -/
def ofContract (c : Contract) (registry : Registry) : Except Fault Simulator := do
  let plans ← c.plans registry fun _ => true
  let procedures ← c.receivers.zipIdx.mapM fun (_, index) =>
    (c.procedure registry index).mapError (Fault.atReceiver c.name index)
  return ⟨registry, plans, procedures⟩

/-- The plan for a direction, if the contract has a router for it. -/
def plan? (sim : Simulator) (d : Direction) : Option Plan := sim.plans.find? (·.direction == d)

/-- The layout of the message that a receiver is for. -/
def layout? (sim : Simulator) (h : Plan.Handler) : Option Layout := do
  let p ← sim.procedures[h.receiver]?
  let name ← p.selector.message?
  (sim.registry.layout name).toOption

/-! ## Steps -/

/-- The opcode in front of a message, zero where there are not enough bits for one. -/
def opcode (s : Slice) : Except Exit Nat :=
  if opcodeBits ≤ s.remaining then (s.preloadUint opcodeBits).mapError fun e => .codec (.cell e)
  else .ok 0

/-- What is left of a message after some bits. -/
def skip (n : Nat) (s : Slice) : Except Exit Slice :=
  match Slice.skipBits n s with
  | .ok _ s => .ok s
  | .error e _ => .error (.codec (.cell e))

/-- The struct that a receiver gets. -/
def readStruct (sim : Simulator) (h : Plan.Handler) (isPartial : Bool) (s : Slice) :
    Except Exit Record :=
  match sim.layout? h with
  | none => .error (.noLayout h.receiver)
  | some l =>
    match Codec.decode l isPartial s with
    | .ok r _ => .ok r
    | .error e _ => .error (.codec e)

/-- Runs a receiver. -/
def call (sim : Simulator) (h : Plan.Handler) (state : Record) (received : Received) :
    Except Exit Outcome :=
  match sim.procedures[h.receiver]? with
  | none => .error (.unknownHandler h.function)
  | some p => do
    let (_, f) ← (Call.mk p received).exec p.body (Frame.ofState state)
    return ⟨f.state, true, some h.receiver⟩

/-! ## Stages -/

/-- Whether a message of an opcode is for an arm; an empty message has no bits after its opcode. -/
def isFor (opcode : Nat) (s : Slice) : Plan.OpcodeArm → Bool
  | .message _ header .. => header.value.toNat = opcode
  | .empty _ => opcode = 0 && s.remaining ≤ opcodeBits

/-- A bounced message: an arm of its opcode, then whoever takes any; otherwise it is dropped. -/
def deliverBounced (sim : Simulator) (stage : Plan.BounceStage) (state : Record) (s : Slice) :
    Except Exit Outcome := do
  let s ← if stage.skipsMarker then skip bounceMarkerBits s else pure s
  let opcode ← opcode s
  match stage.arms.find? fun arm => arm.header.value.toNat = opcode with
  | some arm => sim.call arm.handler state (.struct (← sim.readStruct arm.handler arm.isPartial s))
  | none =>
    match stage.fallback with
    | some h => sim.call h state (.slice s)
    | none => return ⟨state, true, none⟩

/-- A message of an arm: a struct, or nothing if it is empty. -/
def deliverOpcode (sim : Simulator) (arm : Plan.OpcodeArm) (state : Record) (s : Slice) :
    Except Exit Outcome :=
  match arm with
  | .message _ _ _ h => do sim.call h state (.struct (← sim.readStruct h false s))
  | .empty h => sim.call h state .nothing

/-- Whoever takes any message, if there is one. -/
def deliverAny (sim : Simulator) (fallback : Option Plan.Handler) (state : Record) (s : Slice) :
    Except Exit Outcome :=
  match fallback with
  | some h => sim.call h state (.slice s)
  | none => .ok ⟨state, false, none⟩

/-- The receiver of a comment and what it gets: an arm of the whole message's hash, then whoever takes any
comment. -/
def commentReceiver (stage : Plan.CommentStage) (s : Slice) :
    Except Exit (Option (Plan.Handler × Received)) :=
  match stage.comments.find? fun arm => arm.hash = s.hashText with
  | some arm => .ok (some (arm.handler, .nothing))
  | none =>
    match stage.fallback with
    | some h =>
      if opcodeBits ≤ s.remaining then (skip opcodeBits s).map fun rest => some (h, .slice rest)
      else .ok none
    | none => .ok none

/-- A message that is not bounced: an arm of its opcode, then a comment, then whoever takes any. -/
def deliverPlain (sim : Simulator) (p : Plan) (state : Record) (s : Slice) : Except Exit Outcome := do
  let opcode ← opcode s
  match p.opcodes.find? (isFor opcode s) with
  | some arm => sim.deliverOpcode arm state s
  | none =>
    match p.comments, opcode with
    | some stage, 0 =>
      match ← commentReceiver stage s with
      | some (h, received) => sim.call h state received
      | none => sim.deliverAny p.fallback state s
    | _, _ => sim.deliverAny p.fallback state s

/-- A message of a direction. Only messages from other contracts can be bounced. -/
def deliver (sim : Simulator) (d : Direction) (state : Record) (body : Cell) (isBounced : Bool) :
    Except Exit Outcome :=
  match sim.plan? d with
  | none => .ok ⟨state, false, none⟩
  | some p =>
    match p.bounced, isBounced with
    | some stage, true => sim.deliverBounced stage state (Slice.ofCell body)
    | _, _ => sim.deliverPlain p state (Slice.ofCell body)

end Simulator
end MessageRouter
