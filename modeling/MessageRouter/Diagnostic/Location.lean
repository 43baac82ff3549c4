import MessageRouter.Diagnostic.Span
/-!
# `Diagnostic.Location` — what a diagnostic points at

* `Location`: a receiver of a contract or a stretch of a source text.
* `Location.toJson`, `Location.ofJson`: as JSON, told apart by the member `kind`.
-/
namespace MessageRouter

/-- What a diagnostic points at. -/
inductive Location where
  | receiver (contract : String) (index : Nat)
  | text (span : Span) (snippet : Option String)
  deriving DecidableEq, Repr

namespace Location

def toJson : Location → Json
  | receiver contract index =>
    .object [("kind", .string "receiver"), ("contract", .string contract), ("index", .nat index)]
  | text span snippet =>
    .object ([("kind", .string "text"), ("span", span.toJson)] ++
      (snippet.map fun s => ("snippet", .string s)).toList)

/-- The kinds of locations. -/
inductive Kind where
  | receiver
  | text
  deriving DecidableEq, Repr

def Kind.ofJson : Json → Except Json.Decode.Error Kind
  | .string "receiver" => .ok .receiver
  | .string "text" => .ok .text
  | .string name => .error (.unknownVariant name "`receiver` or `text`")
  | v => .error (.wrongType v "variant identifier")

def indexOfJson : Json → Except Json.Decode.Error Nat := Json.Decode.natural (2 ^ 64 - 1) "usize"

/-- A location of a known kind from the members of an object. -/
def ofMembers (kind : Kind) (members : List (String × Json)) : Except Json.Decode.Error Location :=
  match kind with
  | .receiver => do
    let contract ← Json.Decode.member "contract" Json.Decode.text members
    let index ← Json.Decode.member "index" indexOfJson members
    return receiver (← Json.Decode.required "contract" contract) (← Json.Decode.required "index" index)
  | .text => do
    let snippet ← Json.Decode.member "snippet" (Json.Decode.optional Json.Decode.text) members
    let span ← Json.Decode.member "span" (Span.ofJson .tagged) members
    return text (← Json.Decode.required "span" span) snippet.join

/-- A location of a known kind from the elements after the kind. -/
def ofElements (kind : Kind) (elements : List Json) : Except Json.Decode.Error Location :=
  match kind with
  | .receiver => do
    let expected := "struct variant Location::Receiver with 2 elements"
    match elements with
    | [] => throw (.wrongLength 0 expected)
    | contract :: rest =>
      let contract ← Json.Decode.text contract
      match rest with
      | [] => throw (.wrongLength 1 expected)
      | index :: rest =>
        let index ← indexOfJson index
        Json.Decode.finish .tagged 2 rest
        return receiver contract index
  | .text => do
    let expected := "struct variant Location::Text with 2 elements"
    match elements with
    | [] => throw (.wrongLength 0 expected)
    | span :: rest =>
      let span ← Span.ofJson .tagged span
      match rest with
      | [] => throw (.wrongLength 1 expected)
      | snippet :: rest =>
        let snippet ← Json.Decode.optional Json.Decode.text snippet
        Json.Decode.finish .tagged 2 rest
        return text span snippet

/-- A location from an object, or from an array that starts with the kind. -/
def ofJson : Json → Except Json.Decode.Error Location
  | .object members => do
    let kind ← Json.Decode.member "kind" Kind.ofJson members
    ofMembers (← Json.Decode.required "kind" kind) members
  | .array [] => .error (.missingField "kind")
  | .array (kind :: rest) => do ofElements (← Kind.ofJson kind) rest
  | v => .error (.wrongType v "internally tagged enum Location")

end Location
end MessageRouter
