import MessageRouter.Cell.Slice
import MessageRouter.Json.Basic
import MessageRouter.Schema.FieldType
/-!
# `Value` — what a simulated contract computes with

* `Value`: an integer, a truth value or a slice.
* `Value.Kind`: which of the three.
* `Value.zeroOf`: what a field holds before it is set.
* `Value.toJson`: an integer that 64 bits do not hold is written as decimal text.
-/
namespace MessageRouter

/-- A value of a simulated contract. -/
inductive Value where
  | int (i : Int128)
  | bool (b : Bool)
  | slice (s : Slice)

namespace Value

/-- The kind of a value. -/
inductive Kind where
  | int
  | bool
  | slice
  deriving DecidableEq, Repr

def Kind.name : Kind → String
  | .int => "int"
  | .bool => "bool"
  | .slice => "slice"

def kind : Value → Kind
  | int _ => .int
  | bool _ => .bool
  | slice _ => .slice

/-- The kind of the values of a field. -/
def Kind.ofType : FieldType → Kind
  | .bool => .bool
  | .uint _ | .int _ | .coins => .int

/-- What a field holds before it is set. -/
def zeroOf : FieldType → Value
  | .bool => bool false
  | .uint _ | .int _ | .coins => int 0

/-- The zero of a type is of its kind. -/
@[simp] theorem kind_zeroOf (t : FieldType) : (zeroOf t).kind = Kind.ofType t := by cases t <;> rfl

/-- Whether 64 bits hold an integer. -/
def fitsInt64 (i : Int) : Bool := -2 ^ 63 ≤ i && i < 2 ^ 63

/-- A value as JSON. -/
def toJson : Value → Json
  | int i => if fitsInt64 i.toInt then .int i.toInt else .string (toString i.toInt)
  | bool b => .bool b
  | slice s => .object [("bits", .nat s.remaining), ("hex", .string s.dataText)]

end Value
end MessageRouter
