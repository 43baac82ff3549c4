import MessageRouter.Func.Name
import MessageRouter.Schema.Message
/-!
# `Func.Shape` — fields in generated code

Fields travel together as one tuple and are taken apart into one variable each.
-/
namespace MessageRouter
namespace Func

/-- Several parts as one. -/
def tuple (parts : List String) : String := "(" ++ String.intercalate ", " parts ++ ")"

/-- The type of some fields together. -/
def stackType (fields : List Field) : String := tuple (fields.map (·.type.funcType))

/-- The variables that the fields under a binding are taken apart into. -/
def fieldVariables (binding : String) (fields : List Field) : List String :=
  fields.map fun f => Name.field binding f.name

end Func
end MessageRouter
