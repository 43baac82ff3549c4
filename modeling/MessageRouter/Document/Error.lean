import MessageRouter.Body.Reader
import MessageRouter.Json.Decode
import MessageRouter.Schema.Header
/-!
# `Document.Error` — what is wrong with a program document

* `Pointer`: the way from the root of a document to one of its values.
* `Document.Error`: the causes and their messages.
-/
namespace MessageRouter

/-- The way from the root of a document down to one of its values. -/
inductive Pointer where
  | root
  | key (parent : Pointer) (name : String)
  | index (parent : Pointer) (i : Nat)
  deriving DecidableEq, Repr

namespace Pointer

/-- Every step with a slash in front. -/
def steps : Pointer → String
  | root => ""
  | key parent name => parent.steps ++ "/" ++ name
  | index parent i => parent.steps ++ "/" ++ toString i

/-- The pointer in a message; the root is a slash. -/
def text : Pointer → String
  | root => "/"
  | p => p.steps

/-- The value that a pointer leads to. -/
def resolve? (doc : Json) : Pointer → Option Json
  | root => some doc
  | key parent name =>
    match parent.resolve? doc with
    | some (.object members) => Json.member? name members
    | _ => none
  | index parent i =>
    match parent.resolve? doc with
    | some (.array items) => items[i]?
    | _ => none

end Pointer

/-- The version of the form of program documents. -/
def documentSchema : String := "recvc.unit@0.1.0"

/-- What is wrong with a value of a program document. -/
inductive Document.Error where
  | notObject
  | missing (key : String)
  | notString (key : String)
  | notArray (key : String)
  | unknownSchema (version : String)
  | identifier (cause : Identifier.Error)
  | header (cause : Header.Error)
  | headerNotString
  | duplicateField (name : String)
  | unknownFieldType (name : String)
  | duplicateMessage (name : String)
  | duplicateContract (name : String)
  | loc (cause : Json.Decode.Error)
  | expression (cause : Sexpr.ReadError)
  | bodyNotArray
  | body (cause : BodyError)
  | selfBinding
  | partialNotBool

open Text (quoted) in
def Document.Error.message : Document.Error → String
  | .notObject => "expected an object"
  | .missing key => "missing required field: " ++ key
  | .notString key => key ++ " must be a string"
  | .notArray key => key ++ " must be an array"
  | .unknownSchema version =>
    "unsupported schema_version: got " ++ quoted version ++ " (supported: " ++ documentSchema ++ ")"
  | .identifier cause => cause.message
  | .header cause => cause.message
  | .headerNotString => "header must be a string literal such as \"0x7362d09c\""
  | .duplicateField name => "duplicate field " ++ quoted name
  | .unknownFieldType name =>
    "unknown field type " ++ quoted name ++ " (expected uint<N>, int<N>, bool or coins)"
  | .duplicateMessage name => "duplicate message type " ++ quoted name
  | .duplicateContract name => "duplicate contract " ++ quoted name
  | .loc cause => cause.message
  | .expression cause => cause.message
  | .bodyNotArray => "body must be an array"
  | .body cause => cause.message
  | .selfBinding => "binding cannot be named \"self\""
  | .partialNotBool => "partial must be a boolean"

end MessageRouter
