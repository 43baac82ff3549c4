import MessageRouter.Body.Operand
import MessageRouter.Proofs.Code.Token
import MessageRouter.Text.Numeral
/-!
# `Proofs.Code.Syntax` — generated text as programs

* `Expr`, `Stmt`, `Function`: the programs.
* `Item`: a token, or what stands between brackets once it is read.
* `expr?`, `stmts?`: what some items spell. At most one operator stands between two brackets, so that no
  operator has to bind more tightly than another.
* `read`: brackets are matched and their contents read from the inside out.
* `Function.ofText?`: the function that a text spells.
-/
namespace MessageRouter
namespace Code

/-! ## Programs -/

inductive Expr where
  | int (i : Int)
  | var (name : String)
  | tensor (parts : List Expr)
  | neg (x : Expr)
  | not (x : Expr)
  | binary (op : BinaryOp) (a b : Expr)
  | call (f : String) (args : List Expr)
  /-- A call on a variable, which stays as it is. -/
  | method (target f : String) (args : List Expr)
  /-- A parameter with its type. -/
  | typed (type : Expr) (name : String)

inductive Stmt where
  /-- Several names take a tensor apart. -/
  | declare (names : List String) (value : Expr)
  | assign (name : String) (value : Expr)
  /-- A call that changes a variable; its result may be declared under a name. -/
  | modify (result : Option String) (target f : String) (args : List Expr)
  | branch (cond : Expr) (thenBody elseBody : List Stmt)
  | throw (code : Expr)
  | ret (value : Expr)

structure Function where
  name : String
  parameters : List String
  body : List Stmt

/-! ## Words -/

/-- The number that some digits spell. -/
def digits? (radix : Nat) (cs : List Char) : Option Nat :=
  if cs.isEmpty then none
  else cs.foldlM (fun n c => (Text.digitValue radix c).map (n * radix + ·)) 0

/-- The number that a word spells in its written base. -/
def number? (cs : List Char) : Option Int :=
  match cs with
  | '0' :: 'x' :: rest => (digits? 16 rest).map Int.ofNat
  | '-' :: rest => (digits? 10 rest).map fun n => -(n : Int)
  | cs => (digits? 10 cs).map Int.ofNat

/-- A truth value, a number or a variable. -/
def atom (word : String) : Expr :=
  if word = "true" then .int (-1)
  else if word = "false" then .int 0
  else
    match number? word.toList with
    | some i => .int i
    | none => .var word

/-- The operator of a sign. -/
def operator? (sign : String) : Option BinaryOp := BinaryOp.all.find? fun op => op.sign == sign

/-! ## Items -/

/-- A token, or what stands between brackets. -/
inductive Item where
  | word (text : String)
  | mark (c : Char)
  | group (parts : List Expr)
  | block (body : List Stmt)

/-- One part between brackets stands for itself. -/
def Expr.ofParts : List Expr → Expr
  | [e] => e
  | parts => .tensor parts

/-- An operand in front of some items. -/
def operand? : List Item → Option (Expr × List Item)
  | .word x :: .mark c :: .word f :: .group args :: rest =>
    if c = '.' then some (.method x f args, rest) else none
  | .word f :: .group args :: rest => some (.call f args, rest)
  | .word x :: rest => some (atom x, rest)
  | .group parts :: rest => some (.ofParts parts, rest)
  | _ => none

/-- Items that are one operand. -/
def whole? (items : List Item) : Option Expr :=
  match operand? items with
  | some (e, []) => some e
  | _ => none

/-- An operand, two with an operator between them, or a type and a name. -/
def infix? (items : List Item) : Option Expr :=
  match operand? items with
  | some (a, []) => some a
  | some (a, [.word name]) => some (.typed a name)
  | some (a, .word sign :: rest) => do return .binary (← operator? sign) a (← whole? rest)
  | _ => none

/-- The expression that some items spell. -/
def expr? (items : List Item) : Option Expr :=
  match items with
  | .word w :: rest => if w = "-" then (whole? rest).map .neg else infix? items
  | .mark c :: rest => if c = '~' then (whole? rest).map .not else none
  | items => infix? items

def Item.isComma : Item → Bool
  | .mark c => c == ','
  | _ => false

/-- The expressions between commas. -/
def exprs? (items : List Item) : Option (List Expr) :=
  if items.isEmpty then some [] else (items.splitOnP Item.isComma).mapM expr?

/-! ## Statements -/

def Expr.name? : Expr → Option String
  | .var name => some name
  | _ => none

/-- The names that are declared, and their value. -/
def declaration? : List Item → Option Stmt
  | .word name :: .word sign :: rest =>
    if sign = "=" then
      match rest with
      | [.word x, .mark c, .word f, .group args] =>
        if c = '~' then some (.modify (some name) x f args) else (expr? rest).map (.declare [name])
      | rest => (expr? rest).map (.declare [name])
    else none
  | .group parts :: .word sign :: rest =>
    if sign = "=" then do return .declare (← parts.mapM Expr.name?) (← expr? rest) else none
  | _ => none

/-- What becomes of a variable. -/
def assignment? (x : String) : List Item → Option Stmt
  | .word sign :: rest => if sign = "=" then (expr? rest).map (.assign x) else none
  | [.mark c, .word f, .group args] => if c = '~' then some (.modify none x f args) else none
  | _ => none

/-- The statement that some items before a semicolon spell. -/
def simple? : List Item → Option Stmt
  | .word w :: rest =>
    if w = "return" then (expr? rest).map .ret
    else if w = "throw" then
      match rest with
      | [.group [e]] => some (.throw e)
      | _ => none
    else if w = "var" ∨ w = "int" then declaration? rest
    else assignment? w rest
  | _ => none

/-- The statements that some items after the beginning of a statement spell. -/
def stmtsFrom? (before : List Item) : List Item → Option (List Stmt)
  | [] => if before.isEmpty then some [] else none
  | .word w :: .group [cond] :: .block thenBody :: .word w' :: .block elseBody :: rest =>
    if before.isEmpty ∧ w = "if" ∧ w' = "else" then
      (stmtsFrom? [] rest).map (.branch cond thenBody elseBody :: ·)
    else none
  | .word w :: .group [cond] :: .block thenBody :: rest =>
    if before.isEmpty ∧ w = "if" then (stmtsFrom? [] rest).map (.branch cond thenBody [] :: ·)
    else none
  | .mark c :: rest =>
    if c = ';' then do return (← simple? before) :: (← stmtsFrom? [] rest)
    else stmtsFrom? (before ++ [.mark c]) rest
  | .word w :: rest => stmtsFrom? (before ++ [.word w]) rest
  | .group parts :: rest => stmtsFrom? (before ++ [.group parts]) rest
  | .block _ :: _ => none

/-- The statements that some items spell. -/
def stmts? (items : List Item) : Option (List Stmt) := stmtsFrom? [] items

/-! ## Brackets -/

inductive Bracket where
  | round
  | curly

/-- The items around the innermost brackets, with what stands between them read. -/
def close? (c : Char) (items : List Item) :
    List (Bracket × List Item) → Option (List (Bracket × List Item) × List Item)
  | [] => none
  | (.round, outer) :: stack =>
    if c = ')' then (exprs? items).map fun parts => (stack, outer ++ [.group parts]) else none
  | (.curly, outer) :: stack =>
    if c = '\x7d' then (stmts? items).map fun body => (stack, outer ++ [.block body]) else none

/-- Reads tokens after some items, inside brackets that were opened after other items. -/
def read (stack : List (Bracket × List Item)) (items : List Item) :
    List Token → Option (List Item)
  | [] => if stack.isEmpty then some items else none
  | .word w :: ts => read stack (items ++ [.word w]) ts
  | .mark c :: ts =>
    if c = '(' then read ((.round, items) :: stack) [] ts
    else if c = '\x7b' then read ((.curly, items) :: stack) [] ts
    else if c = ')' ∨ c = '\x7d' then (close? c items stack).bind fun r => read r.1 r.2 ts
    else read stack (items ++ [.mark c]) ts

/-! ## Functions -/

def Expr.parameter? : Expr → Option String
  | .typed _ name => some name
  | _ => none

/-- A type, a name, parameters, how the function is built in, and a body. -/
def Function.ofItems? : List Item → Option Function
  | [.group _, .word name, .group parameters, .word purity, .word inlining, .block body] =>
    if purity = "impure" ∧ (inlining = "inline" ∨ inlining = "inline_ref") then
      (parameters.mapM Expr.parameter?).map fun names => ⟨name, names, body⟩
    else none
  | _ => none

/-- The function that a text spells. -/
def Function.ofText? (text : String) : Option Function :=
  (read [] [] (tokens text.toList)).bind Function.ofItems?

end Code
end MessageRouter
