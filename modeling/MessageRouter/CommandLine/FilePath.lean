/-!
# `CommandLine.FilePath` — paths as steps

* `FilePath.pieces`: the pieces of a path between its slashes.
* `FilePath.steps`: the steps that a path takes from where it starts; empty pieces and single points take
  none.
* `FilePath.ending`: whether a path ends with a step.
* `FilePath.directories`: the directories that a path leads through before its last step, as paths.
-/
namespace MessageRouter
namespace CommandLine
namespace FilePath

/-- The pieces between the slashes. -/
def splitSlashes : List Char → List (List Char)
  | [] => [[]]
  | c :: cs =>
    if c = '/' then [] :: splitSlashes cs
    else
      match splitSlashes cs with
      | [] => [[c]]
      | piece :: rest => (c :: piece) :: rest

def pieces (path : String) : List String := (splitSlashes path.toList).map String.ofList

/-- Whether a piece is a step. -/
def isStep (piece : String) : Bool := piece ≠ "" && piece ≠ "."

/-- The steps that a path takes. -/
def steps (path : String) : List String := (pieces path).filter isStep

/-- How a path ends: with a step, with a slash after its last step, or with a point. -/
inductive Ending where
  | step
  | slash
  | point
  deriving DecidableEq, Repr

def ending (path : String) : Ending :=
  match (pieces path).reverse with
  | [] => .slash
  | last :: before =>
    if isStep last then .step
    else if (last :: before).find? (· ≠ "") = some "." then .point
    else .slash

/-- Pieces, last first, from the last one that matters on. A point in front matters, as it says where a
path starts. -/
def trimmed : List String → List String
  | [] => []
  | [first] => if first = "" then [] else [first]
  | piece :: before => if isStep piece then piece :: before else trimmed before

theorem length_trimmed_le (pieces : List String) : (trimmed pieces).length ≤ pieces.length := by
  fun_induction trimmed pieces with
  | case1 => exact Nat.le_refl _
  | case2 => exact Nat.zero_le _
  | case3 => exact Nat.le_refl _
  | case4 => exact Nat.le_refl _
  | case5 piece before _ _ ih => exact Nat.le_succ_of_le ih

/-- The path of some pieces, last first, and the paths of the directories on the way to it, the innermost
first. -/
def pathsTo : List String → List String
  | [] => []
  | piece :: before => "/".intercalate (piece :: before).reverse :: pathsTo (trimmed before)
termination_by pieces => pieces.length
decreasing_by exact Nat.lt_succ_of_le (length_trimmed_le before)

/-- The directories that a path leads through before its last step, as paths, the innermost first. -/
def directories (path : String) : List String := (pathsTo (trimmed (pieces path).reverse)).drop 1

end FilePath
end CommandLine
end MessageRouter
