import MessageRouter.Func.Expr
import MessageRouter.Func.Shape
import MessageRouter.Func.Writer
/-!
# `Func.Stmt` — statements of generated code

* `Func.Stmt`: declarations, assignments, branches, throws and returns.
* `Func.Stmt.write`: their lines.
* `Func.lowerBody`: the statements that do what a body does. Where the body does not fit its scope they
  stop; a body that was checked does fit.
-/
namespace MessageRouter
namespace Func

/-- A statement of generated code. -/
inductive Stmt where
  /-- One variable for each part of the tuple in `source`. -/
  | unpack (names : List String) (source : String)
  | declare (name : String) (value : Expr)
  | assign (name : String) (value : Expr)
  | branch (cond : Expr) (thenBody elseBody : List Stmt)
  | throw (code : UInt16)
  /-- The end of a receiver, with the variables of the state. -/
  | ret (names : List String)
  /-- Nothing can be generated from here on. -/
  | stuck (cause : ScopeError)

/-! ## Lines -/

mutual

/-- The lines of a statement. -/
def Stmt.write : Stmt → Writing ScopeError Unit
  | .unpack names source => Writing.line ("var " ++ tuple names ++ " = " ++ source ++ ";")
  | .declare name value => Writing.line ("var " ++ name ++ " = " ++ value.text ++ ";")
  | .assign name value => Writing.line (name ++ " = " ++ value.text ++ ";")
  | .branch cond thenBody elseBody =>
    Writing.block ("if " ++ cond.condition) do
      writeStmts thenBody
      if elseBody.isEmpty then pure () else
        Writing.emit Writer.elseBranch
        writeStmts elseBody
  | .throw code => Writing.line ("throw(" ++ toString code.toNat ++ ");")
  | .ret names => Writing.line ("return (" ++ tuple names ++ ", ());")
  | .stuck cause => throw cause

/-- The lines of some statements. -/
def writeStmts : List Stmt → Writing ScopeError Unit
  | [] => pure ()
  | s :: rest => do
    s.write
    writeStmts rest

end

/-! ## Bodies -/

/-- A statement, unless there is a cause against it. -/
def orStuck : Except ScopeError Stmt → Stmt
  | .ok s => s
  | .error cause => .stuck cause

/-- The variables of the state under its own name. -/
def stateVariables (s : Scope) : List String := fieldVariables Place.self s.state

/-- A declaration and its value. -/
def lowerDeclare (s : Scope) (name : String) (value : Operand) : Except ScopeError Stmt := do
  let value ← Expr.ofOperand s value
  let _ ← s.declare name
  return .declare (Name.var name) value

/-- An assignment and its value. -/
def lowerSet (s : Scope) (target : Place) (value : Operand) : Except ScopeError Stmt := do
  let binding ← s.resolveTarget target
  let value ← Expr.ofOperand s value
  return .assign (Expr.variableOf target binding) value

/-- The scope after a statement: a declaration adds its name, and what a branch declares ends with it. -/
def scopeAfter (s : Scope) : MessageRouter.Stmt → Scope
  | .declare name _ => ((s.declare name).toOption).getD s
  | _ => s

mutual

/-- The statement that does what a statement of a body does. -/
def lowerStmt (s : Scope) : MessageRouter.Stmt → Stmt
  | .declare name value => orStuck (lowerDeclare s name value)
  | .set target value => orStuck (lowerSet s target value)
  | .branch cond thenBody elseBody =>
    let thenBody := lowerBody s.push thenBody
    let elseBody := lowerBody s.push elseBody
    orStuck ((Expr.ofOperand s cond).map fun cond => .branch cond thenBody elseBody)
  | .throw code => .throw code
  | .ret => .ret (stateVariables s)

/-- The statements that do what a body does. -/
def lowerBody (s : Scope) : List MessageRouter.Stmt → List Stmt
  | [] => []
  | x :: rest => lowerStmt s x :: lowerBody (scopeAfter s x) rest

end

end Func
end MessageRouter
