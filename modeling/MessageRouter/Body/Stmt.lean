import MessageRouter.Body.Operand
/-!
# `Body.Stmt` — statements of a receiver

* `Stmt`: declaration, assignment, branch, throw and return.
* `endsInReturn`: whether a body closes with a return.
-/
namespace MessageRouter

/-- A statement of a receiver. -/
inductive Stmt where
  | declare (name : String) (value : Operand)
  | set (target : Place) (value : Operand)
  | branch (cond : Operand) (thenBody elseBody : List Stmt)
  | throw (code : UInt16)
  | ret

def Stmt.isReturn : Stmt → Bool
  | .ret => true
  | _ => false

/-- Whether the last statement of a body is a return. -/
def endsInReturn (body : List Stmt) : Bool :=
  match body.getLast? with
  | some s => s.isReturn
  | none => false

@[simp] theorem endsInReturn_append_ret (body : List Stmt) : endsInReturn (body ++ [.ret]) = true := by
  simp [endsInReturn, Stmt.isReturn]

end MessageRouter
