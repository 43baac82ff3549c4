import MessageRouter.Diagnostic.Location
/-!
# `Diagnostic.Report` — diagnostics and reports

* `Severity`, `Stage`, `Diagnostic`: what was found, how grave it is and at which stage of the work.
* `Diagnostic.compare`: the order in which a report lists them, by place, code and message.
* `Report.ofDiagnostics`: the report of some diagnostics, fine if none is an error.
-/
namespace MessageRouter

/-- How grave a diagnostic is. -/
inductive Severity where
  | error
  | warning
  | info
  deriving DecidableEq, Repr

def Severity.name : Severity → String
  | .error => "error"
  | .warning => "warning"
  | .info => "info"

/-- The stage of the work at which something is found. -/
inductive Stage where
  | parse
  | resolve
  | lower
  | route
  | emit
  deriving DecidableEq, Repr

def Stage.name : Stage → String
  | .parse => "parse"
  | .resolve => "resolve"
  | .lower => "lower"
  | .route => "route"
  | .emit => "emit"

/-- One thing that was found. -/
structure Diagnostic where
  code : String
  severity : Severity
  stage : Stage
  message : String
  loc : Option Location
  notes : List String
  data : List (String × Json)

namespace Diagnostic

/-- An error without notes or data. -/
def error (code : String) (stage : Stage) (message : String) (loc : Option Location) : Diagnostic :=
  ⟨code, .error, stage, message, loc, [], []⟩

/-- A diagnostic as JSON, without the members that are empty. -/
def toJson (d : Diagnostic) : Json :=
  .object ([("code", .string d.code), ("severity", .string d.severity.name),
      ("stage", .string d.stage.name), ("message", .string d.message)] ++
    (d.loc.map fun l => ("loc", l.toJson)).toList ++
    (if d.notes.isEmpty then [] else [("notes", .array (d.notes.map .string))]) ++
    (if d.data.isEmpty then [] else [("data", .ofMembers d.data)]))

/-! ## Order -/

/-- A file or contract, an index, a line and a column; whatever is not known counts as empty or zero. -/
structure Place where
  name : String
  index : Nat
  line : Nat
  col : Nat
  deriving DecidableEq, Repr

def Place.ofLocation : Option Location → Place
  | some (.receiver contract index) => ⟨contract, index, 0, 0⟩
  | some (.text span _) => ⟨span.file.getD "", 0, span.start.line, span.start.col⟩
  | none => ⟨"", 0, 0, 0⟩

def Place.compare (a b : Place) : Ordering :=
  (Ord.compare a.name b.name).then <| (Ord.compare a.index b.index).then <|
    (Ord.compare a.line b.line).then <| Ord.compare a.col b.col

/-- By place, then by code, then by message. -/
def compare (a b : Diagnostic) : Ordering :=
  ((Place.ofLocation a.loc).compare (Place.ofLocation b.loc)).then <|
    (Ord.compare a.code b.code).then <| Ord.compare a.message b.message

end Diagnostic

/-! ## Reports -/

/-- The version of the form of reports on diagnostics. -/
def diagnosticSchema : String := "recvc.diag@0.1.0"

/-- Diagnostics in order, with whether all is well. -/
structure Report where
  ok : Bool
  diagnostics : List Diagnostic
  /-- More members, for the reader. -/
  extra : List (String × Json)

namespace Report

/-- The report of some diagnostics; those of one place, code and message keep their order. -/
def ofDiagnostics (diagnostics : List Diagnostic) (extra : List (String × Json)) : Report :=
  let sorted := diagnostics.mergeSort fun a b => (a.compare b).isLE
  ⟨sorted.all fun d => d.severity ≠ .error, sorted, extra⟩

def toJson (r : Report) : Json :=
  .object ([("schema_version", .string diagnosticSchema), ("ok", .bool r.ok),
      ("diagnostics", .array (r.diagnostics.map Diagnostic.toJson))] ++
    (if r.extra.isEmpty then [] else [("meta", .ofMembers r.extra)]))

end Report
end MessageRouter
