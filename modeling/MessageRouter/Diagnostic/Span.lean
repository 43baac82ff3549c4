import MessageRouter.Json.Decode
/-!
# `Diagnostic.Span` — places in source texts

* `Position`: a line and a column.
* `Span`: where something starts, where it ends and in which file, the last two if known.
* `Span.display`: the start in a message.
* `Span.toJson`, `Span.ofJson`: as JSON.
-/
namespace MessageRouter

/-- A line and a column. -/
structure Position where
  line : Nat
  col : Nat
  deriving DecidableEq, Repr

/-- A stretch of a source text. -/
structure Span where
  start : Position
  stop : Option Position
  file : Option String
  deriving DecidableEq, Repr

open Json (Decode.Setting Decode.Error)

namespace Position

def toJson (p : Position) : Json := .object [("line", .nat p.line), ("col", .nat p.col)]

def coordinate : Json → Except Json.Decode.Error Nat := Json.Decode.natural (2 ^ 32 - 1) "u32"

/-- A position from an object, or from an array of line and column. -/
def ofJson (setting : Json.Decode.Setting) : Json → Except Json.Decode.Error Position
  | .object members => do
    let col ← Json.Decode.member "col" coordinate members
    let line ← Json.Decode.member "line" coordinate members
    return ⟨← Json.Decode.required "line" line, ← Json.Decode.required "col" col⟩
  | .array [] => .error (.wrongLength 0 "struct Position with 2 elements")
  | .array [line] => do
    let _ ← coordinate line
    throw (.wrongLength 1 "struct Position with 2 elements")
  | .array (line :: col :: rest) => do
    let line ← coordinate line
    let col ← coordinate col
    Json.Decode.finish setting 2 rest
    return ⟨line, col⟩
  | v => .error (.wrongType v "struct Position")

end Position

namespace Span

/-- The file, if known, the line and the column. -/
def display (s : Span) : String :=
  let place := toString s.start.line ++ ":" ++ toString s.start.col
  match s.file with
  | some file => file ++ ":" ++ place
  | none => place

/-- The members that are known. -/
def toJson (s : Span) : Json :=
  .object ([("start", s.start.toJson)] ++
    (s.stop.map fun p => ("end", p.toJson)).toList ++
    (s.file.map fun file => ("file", .string file)).toList)

/-- A span from an object, or from an array of start, end and file, of which the last two may be left
out. -/
def ofJson (setting : Json.Decode.Setting) : Json → Except Json.Decode.Error Span
  | .object members => do
    let stop ← Json.Decode.member "end" (Json.Decode.optional (Position.ofJson setting)) members
    let file ← Json.Decode.member "file" (Json.Decode.optional Json.Decode.text) members
    let start ← Json.Decode.member "start" (Position.ofJson setting) members
    return ⟨← Json.Decode.required "start" start, stop.join, file.join⟩
  | .array [] => .error (.wrongLength 0 "struct Span with 3 elements")
  | .array (start :: rest) => do
    let start ← Position.ofJson setting start
    let stop ← (rest[0]?).mapM (Json.Decode.optional (Position.ofJson setting))
    let file ← (rest[1]?).mapM (Json.Decode.optional Json.Decode.text)
    Json.Decode.finish setting 3 (rest.drop 2)
    return ⟨start, stop.join, file.join⟩
  | v => .error (.wrongType v "struct Span")

end Span
end MessageRouter
