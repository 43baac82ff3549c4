import MessageRouter.Body.Scope
import MessageRouter.Func.Name
/-!
# `Func.Expr` — expressions of generated code

* `Func.Expr`: literals, variables and operators.
* `Func.Expr.text`, `Func.Expr.condition`: how they are written; every operation stands in parentheses.
* `Func.Expr.ofOperand`: the expression that computes an operand in some scope.
-/
namespace MessageRouter
namespace Func

/-- An expression of generated code. -/
inductive Expr where
  | int (value : Int64)
  | bool (value : Bool)
  | var (name : String)
  /-- How many bits are left of the slice in a variable. -/
  | sliceBits (name : String)
  | neg (x : Expr)
  | not (x : Expr)
  | binary (op : BinaryOp) (a b : Expr)
  deriving DecidableEq, Repr

namespace Expr

/-! ## Text -/

/-- How an expression is written. -/
def text : Expr → String
  | int i => toString i.toInt
  | bool b => toString b
  | var name => name
  | sliceBits name => "slice_bits(" ++ name ++ ")"
  | neg x => "(- " ++ x.text ++ ")"
  | not x => "(~ " ++ x.text ++ ")"
  | binary op a b => "(" ++ a.text ++ " " ++ op.sign ++ " " ++ b.text ++ ")"

/-- Whether an expression is written in parentheses. -/
def isOperation : Expr → Bool
  | neg _ | not _ | binary .. => true
  | int _ | bool _ | var _ | sliceBits _ => false

/-- The expression as a condition, which always stands in parentheses. -/
def condition (e : Expr) : String := if e.isOperation then e.text else "(" ++ e.text ++ ")"

/-! ## Operands -/

/-- The variable of what a place stands for. -/
def variableOf (p : Place) : Binding → String
  | .stateField f => Name.field Place.self f.name
  | .payloadField binding f => Name.field binding f.name
  | .payloadSlice binding => Name.var binding
  | .localVar => Name.var p.root

/-- The expression that computes an operand. -/
def ofOperand (s : Scope) : Operand → Except ScopeError Expr
  | .int i => .ok (int i)
  | .bool b => .ok (bool b)
  | .place p => (s.resolve p).map fun binding => var (variableOf p binding)
  | .bits p => (s.resolve p).map fun _ => sliceBits (Name.var p.root)
  | .unary .neg x => (ofOperand s x).map neg
  | .unary .not x => (ofOperand s x).map not
  | .binary op a b => do
    let a ← ofOperand s a
    let b ← ofOperand s b
    return binary op a b

/-- An operand that fits its scope has an expression. -/
theorem exists_ofOperand {s : Scope} {x : Operand} (h : s.checkOperand x = .ok ()) :
    ∃ e, ofOperand s x = .ok e := by
  induction x with
  | int i => exact ⟨_, rfl⟩
  | bool b => exact ⟨_, rfl⟩
  | place p =>
    rw [Scope.checkOperand, Scope.checkRead] at h
    cases hp : s.resolve p with
    | ok binding => exact ⟨_, by rw [ofOperand, hp]; rfl⟩
    | error e => rw [hp] at h; exact nomatch h
  | bits p =>
    rw [Scope.checkOperand, Scope.checkMeasure] at h
    cases hp : s.resolve p with
    | ok binding => exact ⟨_, by rw [ofOperand, hp]; rfl⟩
    | error e => rw [hp] at h; exact nomatch h
  | unary op x ih =>
    rw [Scope.checkOperand] at h
    obtain ⟨e, he⟩ := ih h
    cases op
    · exact ⟨_, by rw [ofOperand, he]; rfl⟩
    · exact ⟨_, by rw [ofOperand, he]; rfl⟩
  | binary op a b iha ihb =>
    rw [Scope.checkOperand] at h
    cases ha : s.checkOperand a with
    | error e => rw [ha] at h; exact nomatch h
    | ok u =>
      rw [ha] at h
      obtain ⟨ea, hea⟩ := iha ha
      obtain ⟨eb, heb⟩ := ihb h
      exact ⟨_, by rw [ofOperand, hea, heb]; rfl⟩

end Expr
end Func
end MessageRouter
