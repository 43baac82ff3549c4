import Mathlib.Data.Int.Bitwise
import MessageRouter.Proofs.Code.Syntax
import MessageRouter.Record
/-!
# `Proofs.Code.Run` — what generated programs do

* `Val`: integers without bounds, slices, structs and tensors; true is `-1` and false is `0`.
* `Stop`: an exit, or a program that goes wrong.
* `Env`: the variables of each open block.
* `eval`: the value of an expression, which changes nothing.
* `exec`: what statements do. What a call changes is up to a `Library`.
* `Function.run`: what a function gives for some arguments.
-/
namespace MessageRouter
namespace Code

/-! ## Values -/

inductive Val where
  | int (i : Int)
  | slice (s : Slice)
  | struct (r : Record)
  | tensor (parts : List Val)

namespace Val

/-- All bits of true are set. -/
def ofBool (b : Bool) : Val := .int (if b then -1 else 0)

/-- One part stands for itself. -/
def ofParts : List Val → Val
  | [v] => v
  | parts => .tensor parts

/-- Nothing. -/
def unit : Val := .tensor []

end Val

/-- Why a program ends early. -/
inductive Stop where
  | exit (code : Nat)
  /-- A program that nothing is promised of. -/
  | stuck
  deriving DecidableEq, Repr

/-! ## Variables -/

/-- The variables of a block, the latest first. -/
abbrev Block := List (String × Val)

/-- The variables of each open block, the innermost first. -/
abbrev Env := List Block

namespace Env

/-- The value of the innermost and latest variable of a name. -/
def get? (env : Env) (name : String) : Option Val := env.findSome? (·.lookup name)

/-- One more variable in the innermost block. -/
def declare (name : String) (v : Val) : Env → Env
  | [] => [[(name, v)]]
  | block :: env => ((name, v) :: block) :: env

/-- Names for the parts of a value. -/
def declareAll (names : List String) (v : Val) (env : Env) : Except Stop Env :=
  match names, v with
  | [name], v => .ok (env.declare name v)
  | names, .tensor parts =>
    if names.length = parts.length then
      .ok ((names.zip parts).foldl (fun env e => env.declare e.1 e.2) env)
    else .error .stuck
  | _, _ => .error .stuck

/-- A block with the latest variable of a name changed. -/
def setIn (name : String) (v : Val) : Block → Option Block
  | [] => none
  | (n, w) :: rest =>
    if n = name then some ((n, v) :: rest) else (setIn name v rest).map ((n, w) :: ·)

/-- The variables with the innermost and latest one of a name changed. -/
def set? (name : String) (v : Val) : Env → Option Env
  | [] => none
  | block :: env =>
    match setIn name v block with
    | some block => some (block :: env)
    | none => (set? name v env).map (block :: ·)

/-- An assignment to a variable that has to be there. -/
def set (env : Env) (name : String) (v : Val) : Except Stop Env :=
  match env.set? name v with
  | some env => .ok env
  | none => .error .stuck

end Env

/-! ## Expressions -/

/-- An operator on integers. -/
def applyBinary (op : BinaryOp) (a b : Int) : Val :=
  match op with
  | .add => .int (a + b)
  | .sub => .int (a - b)
  | .mul => .int (a * b)
  | .eq => .ofBool (a = b)
  | .ne => .ofBool (a ≠ b)
  | .lt => .ofBool (a < b)
  | .le => .ofBool (a ≤ b)
  | .gt => .ofBool (b < a)
  | .ge => .ofBool (b ≤ a)
  | .and => .int (a.land b)
  | .or => .int (a.lor b)

/-- The hash of a slice as a number. -/
def hashNumber (s : Slice) : Nat := Bits.toNat (Bits.ofBytes s.toCell.hash)

/-- The functions that the target knows. -/
def applyFunction (f : String) (args : List Val) : Except Stop Val :=
  match args with
  | [.slice s] =>
    if f = "slice_bits" then .ok (.int s.remaining)
    else if f = "slice_hash" then .ok (.int (hashNumber s))
    else .error .stuck
  | _ => .error .stuck

/-- The exit code of a slice that is too short. -/
def underflow : Nat := 9

/-- The calls on a slice that leave it as it is. -/
def applyMethod (f : String) (target : Val) (args : List Val) : Except Stop Val :=
  match target, args with
  | .slice s, [.int n] =>
    if s.remaining < n.toNat then .error (.exit underflow)
    else if f = "preload_uint" then .ok (.int (Bits.toNat (s.bits.take n.toNat)))
    else if f = "skip_bits" then .ok (.slice (s.drop n.toNat))
    else .error .stuck
  | _, _ => .error .stuck

/-- The value of a variable that has to be there. -/
def Env.get (env : Env) (name : String) : Except Stop Val :=
  match env.get? name with
  | some v => .ok v
  | none => .error .stuck

/-- The integer that a value has to be. -/
def Val.toInt : Val → Except Stop Int
  | .int i => .ok i
  | _ => .error .stuck

mutual

/-- The value of an expression. -/
def eval (env : Env) : Expr → Except Stop Val
  | .int i => .ok (.int i)
  | .var name => env.get name
  | .tensor parts => (evalAll env parts).map .tensor
  | .neg x => do return .int (-(← (← eval env x).toInt))
  | .not x => do return .int (-(← (← eval env x).toInt) - 1)
  | .binary op a b => do
    let a ← (← eval env a).toInt
    let b ← (← eval env b).toInt
    return applyBinary op a b
  | .call f args => do applyFunction f (← evalAll env args)
  | .method target f args => do applyMethod f (← env.get target) (← evalAll env args)
  | .typed _ _ => .error .stuck

def evalAll (env : Env) : List Expr → Except Stop (List Val)
  | [] => .ok []
  | e :: rest => do
    let v ← eval env e
    let vs ← evalAll env rest
    return v :: vs

end

/-! ## Statements -/

/-- What calls do that change a variable: its new value and their result. -/
structure Library where
  modify : (f : String) → (target : Val) → (args : List Val) → Except Stop (Val × Val)

/-- Whether statements go on, or what they return. -/
inductive Flow where
  | next (env : Env)
  | returned (v : Val)

/-- A call on a variable, and the name for its result. -/
def execModify (lib : Library) (result : Option String) (target f : String) (args : List Expr)
    (env : Env) : Except Stop Env := do
  let (v, out) ← lib.modify f (← env.get target) (← evalAll env args)
  let env ← env.set target v
  match result with
  | some name => return env.declare name out
  | none => return env

/-- The variables after the innermost block. -/
def Flow.pop : Flow → Flow
  | next env => next env.tail
  | returned v => returned v

mutual

/-- What a statement does. -/
def execStmt (lib : Library) (s : Stmt) (env : Env) : Except Stop Flow :=
  match s with
  | .declare names value => do return .next (← env.declareAll names (← eval env value))
  | .assign name value => do return .next (← env.set name (← eval env value))
  | .modify result target f args => do return .next (← execModify lib result target f args env)
  | .branch cond thenBody elseBody => do
    let i ← (← eval env cond).toInt
    let flow ← if i ≠ 0 then exec lib thenBody ([] :: env) else exec lib elseBody ([] :: env)
    return flow.pop
  | .throw code => do
    let i ← (← eval env code).toInt
    .error (.exit i.toNat)
  | .ret value => do return .returned (← eval env value)

/-- What statements do; nothing runs after a return. -/
def exec (lib : Library) (body : List Stmt) (env : Env) : Except Stop Flow :=
  match body with
  | [] => .ok (.next env)
  | s :: rest => do
    match ← execStmt lib s env with
    | .returned v => return .returned v
    | .next env => exec lib rest env

end

/-- What a function gives for some arguments; without a return it gives nothing. -/
def Function.run (f : Function) (lib : Library) (args : List Val) : Except Stop Val :=
  if f.parameters.length = args.length then do
    match ← exec lib f.body [f.parameters.zip args] with
    | .returned v => return v
    | .next _ => return .unit
  else .error .stuck

end Code
end MessageRouter
