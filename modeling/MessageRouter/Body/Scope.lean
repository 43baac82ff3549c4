import MessageRouter.Body.Payload
import MessageRouter.Body.Stmt
/-!
# `Body.Scope` — what the names of a body stand for

* `Scope`: the state fields, the payload and the locals of each open block.
* `Scope.resolve`, `Scope.resolveTarget`: what a place stands for, to be read or to be assigned.
* `Scope.checkOperand`: whether an operand only reads what is there.
* `Checking`, `checkBody`: the check of a body; it leaves its declarations behind, also where it fails.
-/
namespace MessageRouter

/-- Why a body does not fit its receiver. -/
inductive ScopeError where
  | shadowing (name : String)
  | selfAsValue
  | noStateField (field : String)
  | messageAsValue (binding : String)
  | droppedField (message field : String)
  | noMessageField (message field : String)
  | sliceField (binding field : String)
  | unknownName (name : String)
  | localField (name field : String)
  | readOnly (target : Place)
  | sliceAsValue (binding : String)
  | notSlice (p : Place)
  deriving DecidableEq, Repr

open Text (quoted) in
def ScopeError.message : ScopeError → String
  | .shadowing name => "local " ++ quoted name ++ " shadows a receiver binding"
  | .selfAsValue => "`self` cannot be used as a value"
  | .noStateField field => "contract state has no field " ++ quoted field
  | .messageAsValue binding =>
    "message binding " ++ quoted binding ++ " cannot be used as a value, access its fields"
  | .droppedField message field =>
    "field " ++ quoted field ++ " of " ++ message ++
      " is not available in a bounced message, the partial layout keeps only the first 224 bits"
  | .noMessageField message field => "message " ++ message ++ " has no field " ++ quoted field
  | .sliceField binding field =>
    "slice binding " ++ quoted binding ++ " has no field " ++ quoted field
  | .unknownName name => "unknown name " ++ quoted name
  | .localField name field => "local " ++ quoted name ++ " has no field " ++ quoted field
  | .readOnly target => "cannot assign to " ++ target.display ++ ": message payloads are read-only"
  | .sliceAsValue binding =>
    "slice binding " ++ quoted binding ++ " can only be measured with [\"bits\", " ++
      quoted binding ++ "]"
  | .notSlice p => p.display ++ " is not a slice"

/-- What a place stands for. -/
inductive Binding where
  | stateField (field : Field)
  | payloadField (binding : String) (field : Field)
  | payloadSlice (binding : String)
  | localVar
  deriving DecidableEq, Repr

/-- The state fields, the payload and the locals of each open block. -/
structure Scope where
  state : List Field
  payload : Payload
  /-- The locals of the innermost block, the latest first. -/
  inner : List String
  /-- The locals of the blocks around it, the innermost first. -/
  outer : List (List String)

namespace Scope

/-- The scope in which a body starts. -/
def ofReceiver (state : List Field) (payload : Payload) : Scope := ⟨state, payload, [], []⟩

/-! ## Blocks and locals -/

/-- The scope inside a new block. -/
def push (s : Scope) : Scope := { s with inner := [], outer := s.inner :: s.outer }

/-- The scope after the innermost block; the outermost one stays. -/
def pop (s : Scope) : Scope :=
  match s.outer with
  | [] => s
  | names :: outer => { s with inner := names, outer := outer }

/-- The scope after a declaration. -/
def declare (s : Scope) (name : String) : Except ScopeError Scope :=
  if name = Place.self ∨ s.payload.binding? = some name then .error (.shadowing name)
  else .ok { s with inner := name :: s.inner }

/-- Exactly the names that are not taken by the state or the payload can be declared. -/
theorem declare_eq_ok_iff {s t : Scope} {name : String} :
    s.declare name = .ok t ↔
      name ≠ Place.self ∧ s.payload.binding? ≠ some name ∧
        t = { s with inner := name :: s.inner } := by
  unfold declare
  by_cases h : name = Place.self ∨ s.payload.binding? = some name
  · rw [if_pos h]
    constructor
    · intro ht; exact nomatch ht
    · rintro ⟨h₁, h₂, _⟩
      exact absurd h (not_or.mpr ⟨h₁, h₂⟩)
  · rw [if_neg h]
    obtain ⟨h₁, h₂⟩ := not_or.mp h
    constructor
    · intro ht; exact ⟨h₁, h₂, (Except.ok.inj ht).symm⟩
    · rintro ⟨_, _, rfl⟩; rfl

/-- Whether a name is a local of an open block. -/
def isLocal (s : Scope) (name : String) : Bool :=
  s.inner.contains name || s.outer.any (·.contains name)

/-! ## Places -/

/-- The field of a name. -/
def field? (fields : List Field) (name : String) : Option Field := fields.find? (·.name == name)

/-- What a field of the contract's state stands for. -/
def resolveState (s : Scope) : Option String → Except ScopeError Binding
  | none => .error .selfAsValue
  | some name =>
    match field? s.state name with
    | some f => .ok (.stateField f)
    | none => .error (.noStateField name)

/-- What a field of a struct payload stands for. -/
def resolveStruct (binding message : String) (fields : List Field) (isPartial : Bool)
    (dropped : List String) : Option String → Except ScopeError Binding
  | none => .error (.messageAsValue binding)
  | some name =>
    match field? fields name with
    | some f => .ok (.payloadField binding f)
    | none =>
      if isPartial && dropped.contains name then .error (.droppedField message name)
      else .error (.noMessageField message name)

/-- What a slice payload stands for. -/
def resolveSlice (binding : String) : Option String → Except ScopeError Binding
  | none => .ok (.payloadSlice binding)
  | some name => .error (.sliceField binding name)

/-- What a local stands for. -/
def resolveLocal (s : Scope) (p : Place) : Except ScopeError Binding :=
  if s.isLocal p.root then
    match p.field with
    | none => .ok .localVar
    | some name => .error (.localField p.root name)
  else .error (.unknownName p.root)

/-- What a place stands for: the state, the payload or a local, whichever has its name first. -/
def resolve (s : Scope) (p : Place) : Except ScopeError Binding :=
  if p.root = Place.self then s.resolveState p.field
  else
    match s.payload with
    | .struct binding message fields isPartial dropped =>
      if binding = p.root then resolveStruct binding message fields isPartial dropped p.field
      else s.resolveLocal p
    | .slice binding => if binding = p.root then resolveSlice binding p.field else s.resolveLocal p
    | .none => s.resolveLocal p

/-- What an assigned place stands for; payloads cannot be assigned. -/
def resolveTarget (s : Scope) (p : Place) : Except ScopeError Binding := do
  match ← s.resolve p with
  | .payloadField .. | .payloadSlice _ => throw (.readOnly p)
  | binding => return binding

/-! ## Operands -/

/-- A place may be read unless it is a slice. -/
def checkRead (s : Scope) (p : Place) : Except ScopeError Unit := do
  match ← s.resolve p with
  | .payloadSlice binding => throw (.sliceAsValue binding)
  | _ => return ()

/-- Only a slice may be measured. -/
def checkMeasure (s : Scope) (p : Place) : Except ScopeError Unit := do
  match ← s.resolve p with
  | .payloadSlice _ => return ()
  | _ => throw (.notSlice p)

/-- Whether an operand only reads what is there. -/
def checkOperand (s : Scope) : Operand → Except ScopeError Unit
  | .int _ | .bool _ => .ok ()
  | .place p => s.checkRead p
  | .bits p => s.checkMeasure p
  | .unary _ x => s.checkOperand x
  | .binary _ a b => do
    s.checkOperand a
    s.checkOperand b

end Scope

/-! ## Bodies -/

/-- Checks that go on from the declarations before them. -/
abbrev Checking := EStateM ScopeError Scope

namespace Checking

/-- A check in the present scope. -/
def inScope (check : Scope → Except ScopeError α) : Checking α := fun s =>
  match check s with
  | .ok a => .ok a s
  | .error e => .error e s

/-- A declaration in the innermost block. -/
def declare (name : String) : Checking Unit := fun s =>
  match s.declare name with
  | .ok s => .ok () s
  | .error e => .error e s

/-- A check inside a new block, which is closed however it ends. -/
def inBlock (check : Checking Unit) : Checking Unit := fun s =>
  match check s.push with
  | .ok _ s => .ok () s.pop
  | .error e s => .error e s.pop

end Checking

mutual

/-- The check of a statement. -/
def checkStmt : Stmt → Checking Unit
  | .declare name value => do
    Checking.inScope fun s => s.checkOperand value
    Checking.declare name
  | .set target value => do
    let _ ← Checking.inScope fun s => s.resolveTarget target
    Checking.inScope fun s => s.checkOperand value
  | .branch cond thenBody elseBody => do
    Checking.inScope fun s => s.checkOperand cond
    Checking.inBlock (checkBody thenBody)
    Checking.inBlock (checkBody elseBody)
  | .throw _ | .ret => pure ()

/-- The check of a body. -/
def checkBody : List Stmt → Checking Unit
  | [] => pure ()
  | s :: rest => do
    checkStmt s
    checkBody rest

end

end MessageRouter
