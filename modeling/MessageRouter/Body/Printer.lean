import MessageRouter.Body.Sexpr
import MessageRouter.Body.Stmt
/-!
# `Body.Printer` — statements as expressions

* `Place.toSexpr`, `Operand.toSexpr`, `Stmt.toSexpr`, `printBody`: the expressions that read back as a
  body; a branch without an else part is written with an empty one.
-/
namespace MessageRouter

def Place.toSexpr (p : Place) : Sexpr := .word p.display

/-- The expression of an operand. -/
def Operand.toSexpr : Operand → Sexpr
  | .int i => .int i
  | .bool b => .word (toString b)
  | .place p => p.toSexpr
  | .bits p => .list [.word "bits", p.toSexpr]
  | .unary .neg x => .list [.word "-", x.toSexpr]
  | .unary .not x => .list [.word "!", x.toSexpr]
  | .binary op a b => .list [.word op.word, a.toSexpr, b.toSexpr]

mutual

/-- The expression of a statement. -/
def Stmt.toSexpr : Stmt → Sexpr
  | .declare name value => .list [.word "let", .word name, value.toSexpr]
  | .set target value => .list [.word "set", target.toSexpr, value.toSexpr]
  | .branch cond thenBody elseBody =>
    .list [.word "if", cond.toSexpr, .list (printBody thenBody), .list (printBody elseBody)]
  | .throw code => .list [.word "throw", .int (Int64.ofNat code.toNat)]
  | .ret => .list [.word "return"]

/-- The expressions of a body. -/
def printBody : List Stmt → List Sexpr
  | [] => []
  | s :: rest => s.toSexpr :: printBody rest

end

end MessageRouter
