import MessageRouter.Identifier
/-!
# `Body.Operand` — places and operands

* `Place`: a name, or a field of what a name stands for.
* `Place.read`, `Place.display`: their text, with a point in front of the field.
* `UnaryOp`, `BinaryOp`, `Operand`: operands as trees.
-/
namespace MessageRouter

/-- A name, or a field of what a name stands for. -/
structure Place where
  root : String
  field : Option String
  deriving DecidableEq, Repr

namespace Place

/-- The name of a contract's own state. -/
def self : String := "self"

/-- The text before the first point, and the text after it if there is a point. -/
def split (text : String) : String × Option String :=
  let cs := text.toList
  let root := String.ofList (cs.takeWhile (· ≠ '.'))
  match cs.dropWhile (· ≠ '.') with
  | [] => (root, none)
  | _ :: field => (root, some (String.ofList field))

/-- A place whose names are allowed. -/
def read (text : String) : Except Identifier.Error Place := do
  let (root, field) := split text
  Identifier.check .localName root
  match field with
  | some name => Identifier.check .localName name
  | none => pure ()
  return ⟨root, field⟩

def display (p : Place) : String :=
  match p.field with
  | some field => p.root ++ "." ++ field
  | none => p.root

end Place

inductive UnaryOp where
  | neg
  | not
  deriving DecidableEq, Repr

inductive BinaryOp where
  | add
  | sub
  | mul
  | eq
  | ne
  | lt
  | le
  | gt
  | ge
  | and
  | or
  deriving DecidableEq, Repr

namespace BinaryOp

/-- Every operator. -/
def all : List BinaryOp := [add, sub, mul, eq, ne, lt, le, gt, ge, and, or]

theorem mem_all (op : BinaryOp) : op ∈ all := by cases op <;> decide

/-- The word for an operator in a body. -/
def word : BinaryOp → String
  | add => "+"
  | sub => "-"
  | mul => "*"
  | eq => "=="
  | ne => "!="
  | lt => "<"
  | le => "<="
  | gt => ">"
  | ge => ">="
  | and => "&&"
  | or => "||"

/-- The sign of an operator in generated code, where `and` and `or` work on all bits. -/
def sign : BinaryOp → String
  | and => "&"
  | or => "|"
  | op => op.word

/-- The operator of a word. -/
def ofWord? (s : String) : Option BinaryOp := all.find? fun op => op.word == s

/-- Exactly the words of operators are read, each as its operator. -/
theorem ofWord?_eq_some_iff {s : String} {op : BinaryOp} : ofWord? s = some op ↔ s = op.word := by
  constructor
  · intro h
    exact (by simpa using List.find?_some h : op.word = s).symm
  · rintro rfl
    cases op <;> decide

end BinaryOp

/-- What a statement computes with. -/
inductive Operand where
  | int (value : Int64)
  | bool (value : Bool)
  | place (p : Place)
  /-- How many bits are left of the slice at a place. -/
  | bits (p : Place)
  | unary (op : UnaryOp) (x : Operand)
  | binary (op : BinaryOp) (a b : Operand)
  deriving DecidableEq, Repr

end MessageRouter
