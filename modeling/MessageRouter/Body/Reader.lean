import MessageRouter.Body.Sexpr
import MessageRouter.Body.Stmt
/-!
# `Body.Reader` — statements from expressions

* `BodyError`: why an expression is no body.
* `Operand.ofSexpr`, `Stmt.ofSexpr`, `readBody`: the forms of operands and statements.

Blocks and operands may not be nested deeper than `maxBodyDepth`; a statement's operands and its branches
lie one level below the statement.
-/
namespace MessageRouter

/-- How deep blocks and operands may be nested. -/
def maxBodyDepth : Nat := 64

/-- Why an expression is no body. -/
inductive BodyError where
  | stmtNesting
  | operandNesting
  | identifier (cause : Identifier.Error)
  | stmtNotList (e : Sexpr)
  | stmtWithoutHead (e : Sexpr)
  | letNameNotWord (e : Sexpr)
  | setTargetNotWord (e : Sexpr)
  | throwCodeNotInt (e : Sexpr)
  | throwCodeRange (code : Int64)
  | unknownStmt (head : String) (size : Nat)
  | branchNotBlock (e : Sexpr)
  | operandWithoutHead (e : Sexpr)
  | unknownOperator (word : String)
  | unknownOperand (word : String) (arity : Nat)

def BodyError.message : BodyError → String
  | .stmtNesting => "statement nesting exceeds " ++ toString maxBodyDepth
  | .operandNesting => "expression nesting exceeds " ++ toString maxBodyDepth
  | .identifier cause => cause.message
  | .stmtNotList e => "statement must be a list: " ++ e.tagged
  | .stmtWithoutHead e => "statement must start with an identifier: " ++ e.tagged
  | .letNameNotWord e => "let name must be an identifier: " ++ e.tagged
  | .setTargetNotWord e => "set target must be a place: " ++ e.tagged
  | .throwCodeNotInt e => "throw code must be an integer: " ++ e.tagged
  | .throwCodeRange code => "throw code out of range: " ++ toString code.toInt
  | .unknownStmt head size =>
    "unknown statement form " ++ Text.quoted head ++ " with " ++ toString size ++ " items"
  | .branchNotBlock e => "branch body must be a list of statements: " ++ e.tagged
  | .operandWithoutHead e => "expression must start with an operator: " ++ e.tagged
  | .unknownOperator word => "unknown operator " ++ Text.quoted word
  | .unknownOperand word arity =>
    "unknown expression form " ++ Text.quoted word ++ " with " ++ toString arity ++ " operands"

/-! ## Operands -/

/-- A place of a body. -/
def readPlace (text : String) : Except BodyError Place := (Place.read text).mapError .identifier

/-- The operand of a word: a truth value or a place. -/
def operandOfWord (text : String) : Except BodyError Operand :=
  if text = "true" then .ok (.bool true)
  else if text = "false" then .ok (.bool false)
  else (readPlace text).map .place

/-- The operand of an expression at some depth. -/
def Operand.ofSexpr (depth : Nat) (e : Sexpr) : Except BodyError Operand :=
  if maxBodyDepth < depth then .error .operandNesting
  else
    match e with
    | .int i => .ok (.int i)
    | .word text => operandOfWord text
    | .list (.word head :: args) =>
      match args with
      | [x] =>
        if head = "bits" then
          match x with
          | .word text => (readPlace text).map .bits
          | _ => .error (.unknownOperand head 1)
        else if head = "-" then (Operand.ofSexpr (depth + 1) x).map (.unary .neg)
        else if head = "!" then (Operand.ofSexpr (depth + 1) x).map (.unary .not)
        else .error (.unknownOperand head 1)
      | [a, b] =>
        match BinaryOp.ofWord? head with
        | some op => do
          let a ← Operand.ofSexpr (depth + 1) a
          let b ← Operand.ofSexpr (depth + 1) b
          return .binary op a b
        | none => .error (.unknownOperator head)
      | args => .error (.unknownOperand head args.length)
    | e => .error (.operandWithoutHead e)
termination_by structural e

/-! ## Statements -/

/-- The code of a throw. -/
def throwCode : Sexpr → Except BodyError UInt16
  | .int code =>
    if 0 ≤ code.toInt ∧ code.toInt < 2 ^ 16 then .ok (UInt16.ofNat code.toInt.toNat)
    else .error (.throwCodeRange code)
  | e => .error (.throwCodeNotInt e)

/-- Whether a list may be a block: it does not start with a word. -/
def isBlock (items : List Sexpr) : Bool := (Sexpr.list items).head?.isNone

mutual

/-- The statement of an expression in a block at some depth. -/
def Stmt.ofSexpr (depth : Nat) (e : Sexpr) : Except BodyError Stmt :=
  match e with
  | .list (.word head :: args) =>
    match head, args with
    | "let", [name, value] =>
      match name with
      | .word name => do
        (Identifier.check .localName name).mapError .identifier
        return .declare name (← Operand.ofSexpr (depth + 1) value)
      | name => .error (.letNameNotWord name)
    | "set", [target, value] =>
      match target with
      | .word target => do
        let target ← readPlace target
        return .set target (← Operand.ofSexpr (depth + 1) value)
      | target => .error (.setTargetNotWord target)
    | "if", [cond, thenBody] => do
      let cond ← Operand.ofSexpr (depth + 1) cond
      let thenBody ← branchOfSexpr (depth + 1) thenBody
      return .branch cond thenBody []
    | "if", [cond, thenBody, elseBody] => do
      let cond ← Operand.ofSexpr (depth + 1) cond
      let thenBody ← branchOfSexpr (depth + 1) thenBody
      let elseBody ← branchOfSexpr (depth + 1) elseBody
      return .branch cond thenBody elseBody
    | "throw", [code] => (throwCode code).map .throw
    | "return", [] => .ok .ret
    | head, args => .error (.unknownStmt head (args.length + 1))
  | .list items => .error (.stmtWithoutHead (.list items))
  | e => .error (.stmtNotList e)
termination_by structural e

/-- The block of a branch. -/
def branchOfSexpr (depth : Nat) (e : Sexpr) : Except BodyError (List Stmt) :=
  match e with
  | .list items =>
    if isBlock items then
      if maxBodyDepth < depth then .error .stmtNesting else stmtsOfSexprs depth items
    else .error (.branchNotBlock (.list items))
  | e => .error (.branchNotBlock e)
termination_by structural e

def stmtsOfSexprs (depth : Nat) (items : List Sexpr) : Except BodyError (List Stmt) :=
  match items with
  | [] => .ok []
  | e :: rest => do
    let s ← Stmt.ofSexpr depth e
    let ss ← stmtsOfSexprs depth rest
    return s :: ss
termination_by structural items

end

/-- The body of a list of expressions. -/
def readBody (items : List Sexpr) : Except BodyError (List Stmt) := stmtsOfSexprs 0 items

end MessageRouter
