import MessageRouter.Proofs.Fallible
import MessageRouter.Simulator.Basic
/-!
# `Proofs.Delivery.Selection` — which receiver gets a message, apart from what it does with it

* `Selection`: what becomes of a message.
* `Simulator.select`: the choice that the stages of a plan make; it looks at the message alone.
* `Simulator.answer`: what a choice does to the state.
* `Simulator.deliver_eq_select`: a message is delivered by choosing and then answering.
-/
namespace MessageRouter
/-- The opcode in front of a message, zero if the message is shorter than that. -/
def Slice.opcode (s : Slice) : Nat :=
  if opcodeBits ≤ s.remaining then Bits.toNat (s.bits.take opcodeBits) else 0

namespace Simulator

/-- What becomes of a message. -/
inductive Selection (α : Type) where
  /-- Some receiver gets something of the message. -/
  | call (who : α) (received : Received)
  /-- Nobody gets the message, which counts as handled all the same. -/
  | swallowed
  | unhandled

/-- The same choice with the receiver named in another way. -/
def Selection.map (f : α → β) : Selection α → Selection β
  | call who received => call (f who) received
  | swallowed => swallowed
  | unhandled => unhandled

/-! ## Steps -/

/-- A number in front of a message is its opcode, if it is long enough for one: 32 bits are in the range of numbers. -/
theorem preloadUint_opcodeBits (s : Slice) :
    s.preloadUint opcodeBits =
      if opcodeBits ≤ s.remaining then .ok s.opcode
      else .error (.underflow opcodeBits s.remaining) := by
  rw [Slice.preloadUint, Slice.front, Slice.opcode]
  by_cases h : opcodeBits ≤ s.remaining
  · have hlen : (s.bits.take opcodeBits).length = opcodeBits := List.length_take_of_le h
    have hlt : Bits.toNat (s.bits.take opcodeBits) < 2 ^ 128 :=
      calc Bits.toNat (s.bits.take opcodeBits)
          < 2 ^ (s.bits.take opcodeBits).length := Bits.toNat_lt _
        _ = 2 ^ opcodeBits := by rw [hlen]
        _ ≤ 2 ^ 128 := by decide
    rw [if_pos h, if_pos h, if_pos h]
    show (if _ < 2 ^ 128 then _ else _) = _
    rw [if_pos hlt]
    rfl
  · rw [if_neg h, if_neg h]
    rfl

/-- Every message has an opcode. -/
theorem opcode_eq (s : Slice) : opcode s = .ok s.opcode := by
  unfold opcode
  by_cases h : opcodeBits ≤ s.remaining
  · rw [if_pos h, preloadUint_opcodeBits, if_pos h]
    rfl
  · rw [if_neg h, Slice.opcode, if_neg h]

/-- Skipping bits takes them if they are there, and is an underflow if not. -/
theorem skip_eq (n : Nat) (s : Slice) :
    skip n s =
      if n ≤ s.remaining then .ok (s.drop n)
      else .error (.codec (.cell (.underflow n s.remaining))) := by
  by_cases h : n ≤ s.remaining
  · simp only [skip, Slice.skipBits, Slice.taking, Slice.front, if_pos h, Except.map]
  · simp only [skip, Slice.skipBits, Slice.taking, Slice.front, if_neg h, Except.map]

/-! ## Stages -/

/-- The choice among bounced messages after the marker, if there is one to be skipped. -/
def selectUnmarked (sim : Simulator) (stage : Plan.BounceStage) (s : Slice) :
    Except Exit (Selection Plan.Handler) := do
  let opcode ← opcode s
  match stage.arms.find? fun arm => arm.header.value.toNat = opcode with
  | some arm => return .call arm.handler (.struct (← sim.readStruct arm.handler arm.isPartial s))
  | none =>
    match stage.fallback with
    | some h => return .call h (.slice s)
    | none => return .swallowed

/-- The choice among bounced messages. -/
def selectBounced (sim : Simulator) (stage : Plan.BounceStage) (s : Slice) :
    Except Exit (Selection Plan.Handler) :=
  if stage.skipsMarker then skip bounceMarkerBits s >>= sim.selectUnmarked stage
  else sim.selectUnmarked stage s

/-- What the receiver of an opcode gets. -/
def selectOpcode (sim : Simulator) (arm : Plan.OpcodeArm) (s : Slice) :
    Except Exit (Selection Plan.Handler) :=
  match arm with
  | .message _ _ _ h => do return .call h (.struct (← sim.readStruct h false s))
  | .empty h => return .call h .nothing

/-- Whoever takes any message, if there is one. -/
def selectAny (fallback : Option Plan.Handler) (s : Slice) : Selection Plan.Handler :=
  match fallback with
  | some h => .call h (.slice s)
  | none => .unhandled

/-- The receiver of a comment and what it gets; only messages of opcode zero are comments. -/
def selectComment (stage : Option Plan.CommentStage) (opcode : Nat) (s : Slice) :
    Except Exit (Option (Plan.Handler × Received)) :=
  match stage, opcode with
  | some stage, 0 => commentReceiver stage s
  | _, _ => .ok none

/-- The choice among messages that are not bounced. -/
def selectPlain (sim : Simulator) (p : Plan) (s : Slice) :
    Except Exit (Selection Plan.Handler) := do
  let opcode ← opcode s
  match p.opcodes.find? (isFor opcode s) with
  | some arm => sim.selectOpcode arm s
  | none =>
    match ← selectComment p.comments opcode s with
    | some (h, received) => return .call h received
    | none => return selectAny p.fallback s

/-- The choice that a plan makes for a message. -/
def selectIn (sim : Simulator) (p : Plan) (body : Cell) (isBounced : Bool) :
    Except Exit (Selection Plan.Handler) :=
  match p.bounced, isBounced with
  | some stage, true => sim.selectBounced stage (Slice.ofCell body)
  | _, _ => sim.selectPlain p (Slice.ofCell body)

/-- The choice for a message of a direction. -/
def select (sim : Simulator) (d : Direction) (body : Cell) (isBounced : Bool) :
    Except Exit (Selection Plan.Handler) :=
  match sim.plan? d with
  | none => .ok .unhandled
  | some p => sim.selectIn p body isBounced

/-- What a choice does to the state. -/
def answer (sim : Simulator) (state : Record) : Selection Plan.Handler → Except Exit Outcome
  | .call h received => sim.call h state received
  | .swallowed => .ok ⟨state, true, none⟩
  | .unhandled => .ok ⟨state, false, none⟩

/-- A stage of comments chooses among its comments, and then whoever takes any. It never fails. -/
theorem commentReceiver_eq (stage : Plan.CommentStage) (s : Slice) :
    commentReceiver stage s =
      .ok (((stage.comments.find? fun arm => arm.hash = s.hashText).map fun arm =>
          (arm.handler, .nothing)).or
        (if opcodeBits ≤ s.remaining then stage.fallback.map fun h => (h, .slice (s.drop opcodeBits))
        else none)) := by
  unfold commentReceiver
  cases stage.comments.find? fun arm => arm.hash = s.hashText with
  | some arm => rfl
  | none =>
    cases stage.fallback with
    | none => simp
    | some h =>
      simp only [skip_eq]
      by_cases hlen : opcodeBits ≤ s.remaining
      · simp only [if_pos hlen]; rfl
      · simp only [if_neg hlen]; rfl

theorem selectComment_of_eq_zero {opcode : Nat} (h : opcode = 0) (stage : Plan.CommentStage)
    (s : Slice) : selectComment (some stage) opcode s = commentReceiver stage s := by
  subst h
  rfl

/-- Only messages of opcode zero are comments. -/
theorem selectComment_of_ne_zero {opcode : Nat} (h : opcode ≠ 0) (stage : Option Plan.CommentStage)
    (s : Slice) : selectComment stage opcode s = .ok none := by
  unfold selectComment
  split
  · exact absurd rfl h
  · rfl

/-- A stage of comments that is left out has neither comments nor anyone who takes them. -/
theorem selectComment_eq (arms : List Plan.CommentArm) (fallback : Option Plan.Handler)
    (s : Slice) :
    selectComment (Plan.commentStage arms fallback) s.opcode s =
      if s.opcode = 0 then commentReceiver ⟨arms, fallback⟩ s else .ok none := by
  by_cases hop : s.opcode = 0
  · rw [if_pos hop]
    unfold Plan.commentStage
    split
    · next hempty =>
      obtain ⟨harms, hfallback⟩ := (Bool.and_eq_true_iff).mp hempty
      obtain rfl := List.isEmpty_iff.mp harms
      obtain rfl := Option.isNone_iff_eq_none.mp hfallback
      rfl
    · exact selectComment_of_eq_zero hop ⟨arms, fallback⟩ s
  · rw [if_neg hop]
    exact selectComment_of_ne_zero hop _ s

/-- Bounced messages after their marker: the first arm of the opcode, then whoever takes any. -/
theorem selectUnmarked_eq (sim : Simulator) (stage : Plan.BounceStage) (s : Slice) :
    sim.selectUnmarked stage s =
      match stage.arms.find? fun arm => arm.header.value.toNat = s.opcode with
      | some arm => do return .call arm.handler (.struct (← sim.readStruct arm.handler arm.isPartial s))
      | none =>
        match stage.fallback with
        | some h => .ok (.call h (.slice s))
        | none => .ok .swallowed := by
  rw [selectUnmarked, opcode_eq]
  rfl

/-- Other messages: the first arm that a message is for, then comments, then whoever takes any. -/
theorem selectPlain_eq (sim : Simulator) (p : Plan) (s : Slice) :
    sim.selectPlain p s =
      match p.opcodes.find? (isFor s.opcode s) with
      | some arm => sim.selectOpcode arm s
      | none => (selectComment p.comments s.opcode s).map fun choice =>
          choice.elim (selectAny p.fallback s) fun c => .call c.1 c.2 := by
  rw [selectPlain, opcode_eq]
  refine (pure_bind s.opcode _).trans ?_
  cases p.opcodes.find? (isFor s.opcode s) with
  | some arm => rfl
  | none =>
    cases selectComment p.comments s.opcode s with
    | error e => rfl
    | ok choice => cases choice <;> rfl

/-! ## Choosing and answering -/

theorem deliverBounced_eq_select (sim : Simulator) (stage : Plan.BounceStage) (state : Record)
    (s : Slice) :
    sim.deliverBounced stage state s = sim.selectBounced stage s >>= sim.answer state := by
  -- the message after the marker, or the message itself
  have hafter (s : Slice) :
      (opcode s >>= fun opcode =>
        match stage.arms.find? fun arm => arm.header.value.toNat = opcode with
        | some arm => do
          sim.call arm.handler state (.struct (← sim.readStruct arm.handler arm.isPartial s))
        | none =>
          match stage.fallback with
          | some h => sim.call h state (.slice s)
          | none => return ⟨state, true, none⟩) =
        sim.selectUnmarked stage s >>= sim.answer state := by
    unfold selectUnmarked
    rw [bind_assoc]
    refine bind_congr fun opcode => ?_
    cases stage.arms.find? fun arm => arm.header.value.toNat = opcode with
    | some arm => rw [bind_assoc]; rfl
    | none => cases stage.fallback <;> rfl
  unfold deliverBounced selectBounced
  cases stage.skipsMarker with
  | true =>
    simp only [if_true]
    rw [bind_assoc]
    exact bind_congr hafter
  | false => exact hafter s

theorem deliverAny_eq_select (sim : Simulator) (fallback : Option Plan.Handler) (state : Record)
    (s : Slice) :
    sim.deliverAny fallback state s = sim.answer state (selectAny fallback s) := by
  cases fallback <;> rfl

theorem deliverOpcode_eq_select (sim : Simulator) (arm : Plan.OpcodeArm) (state : Record)
    (s : Slice) :
    sim.deliverOpcode arm state s = sim.selectOpcode arm s >>= sim.answer state := by
  cases arm with
  | message name header reader h =>
    unfold deliverOpcode selectOpcode
    rw [bind_assoc]; rfl
  | empty h => rfl

theorem deliverPlain_eq_select (sim : Simulator) (p : Plan) (state : Record) (s : Slice) :
    sim.deliverPlain p state s = sim.selectPlain p s >>= sim.answer state := by
  unfold deliverPlain selectPlain
  rw [bind_assoc]
  refine bind_congr fun opcode => ?_
  cases p.opcodes.find? (isFor opcode s) with
  | some arm => exact deliverOpcode_eq_select sim arm state s
  | none =>
    simp only [deliverAny_eq_select]
    cases p.comments with
    | none => rfl
    | some stage =>
      cases opcode with
      | zero =>
        show (commentReceiver stage s >>= _) = (commentReceiver stage s >>= _) >>= _
        rw [bind_assoc]
        refine bind_congr fun receiver => ?_
        cases receiver <;> rfl
      | succ n => rfl

/-- A message is delivered by choosing what becomes of it and then answering. -/
theorem deliver_eq_select (sim : Simulator) (d : Direction) (state : Record) (body : Cell)
    (isBounced : Bool) :
    sim.deliver d state body isBounced = sim.select d body isBounced >>= sim.answer state := by
  unfold deliver select
  cases sim.plan? d with
  | none => rfl
  | some p =>
    simp only [selectIn]
    cases p.bounced with
    | none => exact deliverPlain_eq_select sim p state _
    | some stage =>
      cases isBounced with
      | false => exact deliverPlain_eq_select sim p state _
      | true => exact deliverBounced_eq_select sim stage state _

end Simulator
end MessageRouter
