import MessageRouter.Contract.Slot
import MessageRouter.Limits
/-!
# `Document.Reader` — programs from documents

A document is a JSON object with a version, messages and contracts. Whatever is wrong is told with the
pointer of the value it is about, and the first offence counts.

* `Document.readMessage`, `readReceiver`, `readContract`: the parts.
* `Program.ofJson`: the program of a document.
* `Program.ofBytes`: the program of a document's bytes, of which there may be so many.
-/
namespace MessageRouter
namespace Document

/-- An offence of the value at a pointer. -/
def fail (pointer : Pointer) (cause : Error) : Except Fault α :=
  .error (.ofCause (.document cause pointer))

/-- A result with its offence placed at a pointer. -/
def placed (pointer : Pointer) (wrap : ε → Error) (result : Except ε α) : Except Fault α :=
  match result with
  | .ok a => .ok a
  | .error e => fail pointer (wrap e)

/-! ## Members -/

/-- The members of an object. -/
abbrev Members := List (String × Json)

/-- The members of a value that has to be an object. -/
def members (pointer : Pointer) : Json → Except Fault Members
  | .object ms => .ok ms
  | _ => fail pointer .notObject

/-- A string that has to be there. -/
def requiredText (pointer : Pointer) (ms : Members) (key : String) : Except Fault String :=
  match Json.member? key ms with
  | none => fail pointer (.missing key)
  | some (.string s) => .ok s
  | some _ => fail (.key pointer key) (.notString key)

/-- The elements of an array, none if it is not there. -/
def elements (pointer : Pointer) (ms : Members) (key : String) : Except Fault (List Json) :=
  match Json.member? key ms with
  | none => .ok []
  | some (.array items) => .ok items
  | some _ => fail (.key pointer key) (.notArray key)

/-- The elements of an array, each with its pointer. -/
def pointedElements (pointer : Pointer) (ms : Members) (key : String) :
    Except Fault (List (Json × Pointer)) := do
  let items ← elements pointer ms key
  return items.zipIdx.map fun (v, i) => (v, .index (.key pointer key) i)

/-- A name that has to be there and to be allowed. -/
def requiredName (role : Identifier.Role) (pointer : Pointer) (ms : Members) (key : String) :
    Except Fault String := do
  let name ← requiredText pointer ms key
  placed (.key pointer key) .identifier (Identifier.check role name)
  return name

/-! ## Fields and messages -/

/-- One more field, of a name that is not among the fields before it. -/
def readField (before : List Field) (v : Json) (pointer : Pointer) : Except Fault Field := do
  let ms ← members pointer v
  let name ← requiredName .localName pointer ms "name"
  if before.any (·.name == name) then fail (.key pointer "name") (.duplicateField name)
  let typeName ← requiredText pointer ms "ty"
  match FieldType.ofName? typeName with
  | some type => return ⟨name, type⟩
  | none => fail (.key pointer "ty") (.unknownFieldType typeName)

/-- Fields of different names. -/
def readFields (pointer : Pointer) (ms : Members) : Except Fault (List Field) := do
  let items ← pointedElements pointer ms "fields"
  items.foldlM (fun before (v, p) => return before ++ [← readField before v p]) []

/-- A header; it may be left out. -/
def readHeader (pointer : Pointer) (ms : Members) : Except Fault (Option Header) :=
  match Json.member? "header" ms with
  | none | some .null => .ok none
  | some (.string s) => (placed (.key pointer "header") .header (Header.read s)).map some
  | some _ => fail (.key pointer "header") .headerNotString

def readMessage (v : Json) (pointer : Pointer) : Except Fault Message := do
  let ms ← members pointer v
  let name ← requiredName .typeName pointer ms "name"
  let header ← readHeader pointer ms
  let fields ← readFields pointer ms
  return ⟨name, header, fields⟩

/-! ## Receivers -/

/-- What the kind of a selector says. -/
inductive SelectorKind where
  | message (d : Direction)
  | empty (d : Direction)
  | comment (d : Direction)
  | anyComment (d : Direction)
  | any (d : Direction)
  | bounced
  | anyBounced
  deriving DecidableEq, Repr

/-- The kind of a word: that of a bounce, or a direction and a kind of that direction. -/
def SelectorKind.ofName? (name : String) : Option SelectorKind :=
  let cs := name.toList
  let rest := String.ofList ((cs.dropWhile (· ≠ '-')).drop 1)
  match String.ofList (cs.takeWhile (· ≠ '-')) with
  | "bounce" =>
    match rest with
    | "binary" => some bounced
    | "fallback" => some anyBounced
    | _ => none
  | word =>
    match Direction.ofName? word with
    | none => none
    | some d =>
      match rest with
      | "binary" => some (message d)
      | "empty" => some (empty d)
      | "comment" => some (comment d)
      | "comment-fallback" => some (anyComment d)
      | "fallback" => some (any d)
      | _ => none

/-- The name that a receiver has for what it gets. -/
def readBinding (pointer : Pointer) (ms : Members) : Except Fault String := do
  let name ← requiredName .localName pointer ms "binding"
  if name = Place.self then fail (.key pointer "binding") .selfBinding
  return name

/-- Whether a bounced message is asked for as far as it is sure to be there. -/
def readPartial (pointer : Pointer) (ms : Members) : Except Fault Bool :=
  match Json.member? "partial" ms with
  | none => .ok false
  | some (.bool b) => .ok b
  | some _ => fail (.key pointer "partial") .partialNotBool

def readSelector (v : Json) (pointer : Pointer) : Except Fault Selector := do
  let ms ← members pointer v
  let kind ← requiredText pointer ms "kind"
  match SelectorKind.ofName? kind with
  | none => throw (.ofCause (.unknownSelector kind (.key pointer "kind")))
  | some (.message d) =>
    let name ← requiredText pointer ms "message"
    return .message d name (← readBinding pointer ms)
  | some (.empty d) => return .empty d
  | some (.comment d) => return .comment d (← requiredText pointer ms "text")
  | some (.anyComment d) => return .anyComment d (← readBinding pointer ms)
  | some (.any d) => return .any d (← readBinding pointer ms)
  | some .bounced =>
    let name ← requiredText pointer ms "message"
    let binding ← readBinding pointer ms
    return .bounced name binding (← readPartial pointer ms)
  | some .anyBounced => return .anyBounced (← readBinding pointer ms)

/-- Where a receiver was declared, if that is known. -/
def readLoc (pointer : Pointer) (ms : Members) : Except Fault (Option Span) :=
  match Json.member? "loc" ms with
  | none | some .null => .ok none
  | some v => (placed (.key pointer "loc") .loc (Span.ofJson .plain v)).map some

/-- The body of a receiver, empty if it is left out. -/
def readReceiverBody (pointer : Pointer) (ms : Members) : Except Fault (List Stmt) := do
  let here : Pointer := .key pointer "body"
  match ← placed here .expression (Sexpr.ofJson ((Json.member? "body" ms).getD (.array []))) with
  | .list items => placed here .body (readBody items)
  | _ => fail here .bodyNotArray

def readReceiver (v : Json) (pointer : Pointer) : Except Fault Receiver := do
  let ms ← members pointer v
  let loc ← readLoc pointer ms
  match Json.member? "selector" ms with
  | none => fail pointer (.missing "selector")
  | some s =>
    let selector ← readSelector s (.key pointer "selector")
    let body ← readReceiverBody pointer ms
    return ⟨selector, body, loc⟩

/-! ## Contracts -/

def readContract (v : Json) (pointer : Pointer) : Except Fault Contract := do
  let ms ← members pointer v
  let name ← requiredName .typeName pointer ms "name"
  let fields ← readFields pointer ms
  let items ← pointedElements pointer ms "receivers"
  let receivers ← items.mapM fun (v, p) => readReceiver v p
  return ⟨name, fields, receivers⟩

/-- A message of a name that is not registered yet. -/
def registerMessage (registry : Registry) (v : Json) (pointer : Pointer) : Except Fault Registry := do
  let m ← readMessage v pointer
  match registry.insert? m with
  | some registry => return registry
  | none => fail pointer (.duplicateMessage m.name)

/-- One more contract, of a name that is not among those before it, whose receivers do not clash. -/
def addContract (registry : Registry) (before : List Contract) (v : Json) (pointer : Pointer) :
    Except Fault (List Contract) := do
  let c ← readContract v pointer
  if before.any (·.name == c.name) then fail (.key pointer "name") (.duplicateContract c.name)
  Direction.all.forM (c.checkSlots registry)
  return before ++ [c]

end Document

open Document in
/-- The program of a document. -/
def Program.ofJson (doc : Json) : Except Fault Program := do
  let ms ← members .root doc
  let version ← requiredText .root ms "schema_version"
  if version ≠ documentSchema then fail (.key .root "schema_version") (.unknownSchema version)
  let messages ← pointedElements .root ms "messages"
  let registry ← messages.foldlM (fun registry (v, p) => registerMessage registry v p) .empty
  let contracts ← pointedElements .root ms "contracts"
  let contracts ← contracts.foldlM (fun before (v, p) => addContract registry before v p) []
  return ⟨registry, contracts⟩

/-- The program of a document of at most `limit` bytes. -/
def Program.ofBytes (limit : Nat) (bytes : List UInt8) : Except Fault Program := do
  if limit < bytes.length then throw (.ofCause (.documentSize limit bytes.length))
  let doc ← (Json.read bytes).mapError fun cause => .ofCause (.json cause)
  Program.ofJson doc

end MessageRouter
