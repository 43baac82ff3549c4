import MessageRouter.Json.Printer
/-!
# `Json.Decode` — JSON values read as typed data

* `Decode.Error`: why a value is not of the type asked for.
* `Decode.Setting`: whether the value stands by itself or inside one that a tag tells apart. The two
  settings word a surplus of array elements differently.
* `Decode.natural`, `Decode.text`, `Decode.optional`, `Decode.required`, `Decode.finish`: the pieces from
  which the readers of structures are made. A structure is an object or an array of its fields; of an
  object the members are read in the order of their keys, and what is missing is told afterwards.
-/
namespace MessageRouter
namespace Json
namespace Decode

/-- Why a value is not of the type asked for. -/
inductive Error where
  | wrongType (value : Json) (expected : String)
  | outOfRange (value : Int) (expected : String)
  | missingField (name : String)
  | wrongLength (length : Nat) (expected : String)
  | unknownVariant (name : String) (expected : String)

/-- What kind of value it is, with its content if it is short. -/
def describe : Json → String
  | .null => "null"
  | .bool b => "boolean `" ++ toString b ++ "`"
  | .number (.int i) => "integer `" ++ toString i ++ "`"
  | .number (.double x) => "floating point `" ++ (Number.double x).text ++ "`"
  | .string s => "string " ++ Text.quoted s
  | .array _ => "sequence"
  | .object _ => "map"

def Error.message : Error → String
  | .wrongType v expected => "invalid type: " ++ describe v ++ ", expected " ++ expected
  | .outOfRange i expected => "invalid value: integer `" ++ toString i ++ "`, expected " ++ expected
  | .missingField name => "missing field `" ++ name ++ "`"
  | .wrongLength n expected => "invalid length " ++ toString n ++ ", expected " ++ expected
  | .unknownVariant name expected => "unknown variant `" ++ name ++ "`, expected " ++ expected

/-- Where a value stands. -/
inductive Setting where
  | plain
  /-- Inside a value that a tag tells apart. -/
  | tagged
  deriving DecidableEq, Repr

/-- A natural number of at most `limit`, of a type called `expected`. -/
def natural (limit : Nat) (expected : String) : Json → Except Error Nat
  | .number (.int i) =>
    if 0 ≤ i ∧ i ≤ limit then .ok i.toNat else .error (.outOfRange i expected)
  | v => .error (.wrongType v expected)

/-- A string. -/
def text : Json → Except Error String
  | .string s => .ok s
  | v => .error (.wrongType v "a string")

/-- A value or `null`. -/
def optional (read : Json → Except Error α) : Json → Except Error (Option α)
  | .null => .ok none
  | v => (read v).map some

/-- The member of a key, if it is there. -/
def member (key : String) (read : Json → Except Error α) (members : List (String × Json)) :
    Except Error (Option α) :=
  match member? key members with
  | none => .ok none
  | some v => (read v).map some

/-- The value of a field that has to be there. -/
def required (name : String) : Option α → Except Error α
  | some a => .ok a
  | none => .error (.missingField name)

/-- The end of an array of which `taken` elements were read and `rest` are left. -/
def finish (setting : Setting) (taken : Nat) (rest : List Json) : Except Error Unit :=
  if rest.isEmpty then .ok ()
  else
    .error (.wrongLength (taken + rest.length)
      (match setting with
      | .plain => "fewer elements in array"
      | .tagged =>
        if taken = 1 then "1 element in sequence" else toString taken ++ " elements in sequence"))

end Decode
end Json
end MessageRouter
