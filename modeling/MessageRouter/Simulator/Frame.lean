import MessageRouter.Contract.Procedure
import MessageRouter.Simulator.Exit
/-!
# `Simulator.Frame` — running the body of a receiver

* `Received`: what a receiver gets from a message.
* `Frame`: the state and the locals of each open block.
* `Call.eval`: the value of an operand.
* `Call.exec`: what a body does to a frame, and whether it returned.
-/
namespace MessageRouter
namespace Simulator

/-- What a receiver gets from a message. -/
inductive Received where
  | nothing
  | struct (message : Record)
  | slice (rest : Slice)

/-- The state and the locals of each open block. -/
structure Frame where
  state : Record
  /-- The locals of the innermost block, the latest first. -/
  inner : List (String × Value)
  /-- The locals of the blocks around it, the innermost first. -/
  outer : List (List (String × Value))

namespace Frame

/-! ## Locals -/

/-- The frame in which a body starts. -/
def ofState (state : Record) : Frame := ⟨state, [], []⟩

/-- The frame inside a new block. -/
def push (f : Frame) : Frame := { f with inner := [], outer := f.inner :: f.outer }

/-- The frame after the innermost block. -/
def pop (f : Frame) : Frame :=
  match f.outer with
  | [] => f
  | locals :: outer => { f with inner := locals, outer := outer }

def declare (f : Frame) (name : String) (v : Value) : Frame := { f with inner := (name, v) :: f.inner }

/-- The value of the innermost and latest local of a name. -/
def local? (f : Frame) (name : String) : Option Value :=
  (f.inner.lookup name).or (f.outer.findSome? (·.lookup name))

/-- The blocks with the first local of a name changed in the first block that has one. -/
def setOuter (name : String) (v : Value) :
    List (List (String × Value)) → Option (List (List (String × Value)))
  | [] => none
  | locals :: outer =>
    match Record.setFirst name v locals with
    | some locals => some (locals :: outer)
    | none => (setOuter name v outer).map (locals :: ·)

/-- The frame with the innermost and latest local of a name changed. -/
def setLocal? (f : Frame) (name : String) (v : Value) : Option Frame :=
  match Record.setFirst name v f.inner with
  | some inner => some { f with inner := inner }
  | none => (setOuter name v f.outer).map fun outer => { f with outer := outer }

/-- A local is set in the innermost block if that has one of the name, and else in the blocks around it. -/
theorem setLocal?_eq_some_iff {f f' : Frame} {name : String} {v : Value} :
    f.setLocal? name v = some f' ↔
      (∃ inner, Record.setFirst name v f.inner = some inner ∧ f' = { f with inner := inner }) ∨
        Record.setFirst name v f.inner = none ∧
          ∃ outer, setOuter name v f.outer = some outer ∧ f' = { f with outer := outer } := by
  unfold setLocal?
  cases Record.setFirst name v f.inner with
  | some inner => simp [eq_comm (b := f')]
  | none => simp [eq_comm (b := f')]

end Frame

/-! ## Values -/

/-- Whether a value counts as true. -/
def truth : Value → Except Exit Bool
  | .bool b => .ok b
  | .int i => .ok (i ≠ 0)
  | .slice _ => .error .sliceCondition

/-- A result of arithmetic. -/
def inRange : Option Int128 → Except Exit Value
  | some i => .ok (.int i)
  | none => .error .overflow

def applyUnary : UnaryOp → Value → Except Exit Value
  | .neg, .int i => inRange i.neg?
  | .neg, v => .error (.negatedKind v.kind)
  | .not, .bool b => .ok (.bool !b)
  | .not, .int i => .ok (.int i.not)
  | .not, v => .error (.complementKind v.kind)

/-- An operator on two integers. -/
def applyInt (op : BinaryOp) (a b : Int128) : Except Exit Value :=
  match op with
  | .add => inRange (a.add? b)
  | .sub => inRange (a.sub? b)
  | .mul => inRange (a.mul? b)
  | .eq => .ok (.bool (a = b))
  | .ne => .ok (.bool (a ≠ b))
  | .lt => .ok (.bool (a.toInt < b.toInt))
  | .le => .ok (.bool (a.toInt ≤ b.toInt))
  | .gt => .ok (.bool (b.toInt < a.toInt))
  | .ge => .ok (.bool (b.toInt ≤ a.toInt))
  | .and => .ok (.int (a.and b))
  | .or => .ok (.int (a.or b))

/-- An operator on two truth values, if it has a meaning for them. -/
def applyBool? (op : BinaryOp) (a b : Bool) : Option Bool :=
  match op with
  | .eq => some (a == b)
  | .ne => some (a != b)
  | .and => some (a && b)
  | .or => some (a || b)
  | .add | .sub | .mul | .lt | .le | .gt | .ge => none

def applyBinary (op : BinaryOp) (a b : Value) : Except Exit Value :=
  match a, b with
  | .int a, .int b => applyInt op a b
  | .bool a, .bool b =>
    match applyBool? op a b with
    | some c => .ok (.bool c)
    | none => .error (.operatorKinds op .bool .bool)
  | a, b => .error (.operatorKinds op a.kind b.kind)

/-! ## Bodies -/

/-- A receiver that runs, and what it got. -/
structure Call where
  procedure : Procedure
  received : Received

/-- Whether a body goes on after a statement. -/
inductive Flow where
  | next
  | returned
  deriving DecidableEq, Repr

namespace Call

/-- The value at a place of the payload. -/
def readPayload (c : Call) (p : Place) : Except Exit Value :=
  match c.received, p.field with
  | .struct message, some field =>
    match message.get? field with
    | some v => .ok v
    | none => .error (.noMessageField p)
  | .slice rest, none => .ok (.slice rest)
  | _, _ => .error (.unreadable p)

/-- The value of a field of the state. -/
def readState (f : Frame) (p : Place) : Except Exit Value :=
  match p.field.bind f.state.get? with
  | some v => .ok v
  | none => .error (.noStateField p)

/-- The value of a local, which has no fields. -/
def readLocal (f : Frame) (p : Place) : Except Exit Value :=
  match p.field, f.local? p.root with
  | none, some v => .ok v
  | _, _ => .error (.unknownName p)

/-- The value at a place. -/
def read (c : Call) (f : Frame) (p : Place) : Except Exit Value :=
  if p.root = Place.self then readState f p
  else if c.procedure.payload.binding? = some p.root then c.readPayload p
  else readLocal f p

/-- The length of what is left of the slice at a place. -/
def measure (c : Call) (f : Frame) (p : Place) : Except Exit Value := do
  match ← c.read f p with
  | .slice s => return .int (.ofNat s.remaining)
  | v => throw (.measuredKind p v.kind)

/-- The value of an operand. -/
def eval (c : Call) (f : Frame) : Operand → Except Exit Value
  | .int i => .ok (.int (.ofInt64 i))
  | .bool b => .ok (.bool b)
  | .place p => c.read f p
  | .bits p => c.measure f p
  | .unary op x => do applyUnary op (← c.eval f x)
  | .binary op a b => do
    let a ← c.eval f a
    let b ← c.eval f b
    applyBinary op a b

/-- A value stored in a field of the state, which takes truth values exactly if it is of that type. -/
def storeState (c : Call) (f : Frame) (name : String) (v : Value) : Except Exit Frame :=
  match Scope.field? c.procedure.stateFields name with
  | none => .error (.storedNowhere name)
  | some field =>
    if field.type = .bool ↔ v.kind = .bool then
      .ok { f with state := (f.state.set? name v).getD f.state }
    else .error (.storedKind field v.kind)

/-- A value stored at a place. -/
def store (c : Call) (f : Frame) (p : Place) (v : Value) : Except Exit Frame :=
  if p.root = Place.self then c.storeState f (p.field.getD "") v
  else
    match f.setLocal? p.root v with
    | some f => .ok f
    | none => .error (.noTarget p)

mutual

/-- What a statement does to a frame. -/
def execStmt (c : Call) (s : Stmt) (f : Frame) : Except Exit (Flow × Frame) :=
  match s with
  | .declare name value => do
    let v ← c.eval f value
    return (.next, f.declare name v)
  | .set target value => do
    let v ← c.eval f value
    return (.next, ← c.store f target v)
  | .branch cond thenBody elseBody => do
    let v ← c.eval f cond
    let (flow, f) ← if ← truth v then c.exec thenBody f.push else c.exec elseBody f.push
    return (flow, f.pop)
  | .throw code => .error (.thrown code)
  | .ret => .ok (.returned, f)

/-- What a body does to a frame; nothing runs after a return. -/
def exec (c : Call) (body : List Stmt) (f : Frame) : Except Exit (Flow × Frame) :=
  match body with
  | [] => .ok (.next, f)
  | s :: rest => do
    match ← c.execStmt s f with
    | (.returned, f) => return (.returned, f)
    | (.next, f) => c.exec rest f

end

end Call
end Simulator
end MessageRouter
