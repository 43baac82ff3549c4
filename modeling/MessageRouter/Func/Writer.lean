/-!
# `Func.Writer` — indented text

* `Writer`: the text so far and how deep the next line is indented.
* `line`, `blank`, `openBlock`, `closeBlock`, `elseBranch`: one line each.
* `Writer.block`: a header, a body and the closing brace.
* `Writing`: writing that may fail. `Writing.block` sets the depth back however its body ends, and closes
  only what succeeded.
-/
namespace MessageRouter
namespace Func

/-- Text so far, and how deep the next line is indented. -/
structure Writer where
  text : String
  depth : Nat
  deriving DecidableEq, Repr

namespace Writer

def empty : Writer := ⟨"", 0⟩

/-! ## Lines -/

/-- The blanks in front of a line, four for every level. -/
def margin (depth : Nat) : String := String.ofList (List.replicate (4 * depth) ' ')

/-- A line at the present depth. -/
def line (s : String) (w : Writer) : Writer :=
  { w with text := w.text ++ (margin w.depth ++ (s ++ "\n")) }

/-- An empty line, which is not indented. -/
def blank (w : Writer) : Writer := { w with text := w.text ++ "\n" }

/-- The line that opens a block. -/
def opening (header : String) : String := if header.isEmpty then "\x7b" else header ++ " \x7b"

/-- The start of a block, and one level deeper. -/
def openBlock (header : String) (w : Writer) : Writer :=
  let w := w.line (opening header)
  { w with depth := w.depth + 1 }

/-- One level back, and the end of a block. -/
def closeBlock (w : Writer) : Writer := { w with depth := w.depth - 1 }.line "\x7d"

/-- The line between the two bodies of a branch. -/
def elseBranch (w : Writer) : Writer :=
  let w := { w with depth := w.depth - 1 }.line "\x7d else \x7b"
  { w with depth := w.depth + 1 }

/-- A line goes to the end of the text. -/
theorem text_line (s : String) (w : Writer) :
    (w.line s).text = w.text ++ (margin w.depth ++ (s ++ "\n")) := rfl

/-! ## Blocks -/

/-- A header, a body and the closing brace; whatever the body does to the depth is undone. -/
def block (header : String) (body : Writer → Writer) (w : Writer) : Writer :=
  { body (w.openBlock header) with depth := w.depth + 1 }.closeBlock

@[simp] theorem depth_block (header : String) (body : Writer → Writer) (w : Writer) :
    (w.block header body).depth = w.depth := rfl

end Writer

/-! ## Writing that may fail -/

/-- Writing that may fail; what was written before a failure stays. -/
abbrev Writing (ε : Type) := EStateM ε Writer

namespace Writing

/-- Writing that does not fail. -/
def emit (f : Writer → Writer) : Writing ε Unit := fun w => .ok () (f w)

def line (s : String) : Writing ε Unit := emit (Writer.line s)

/-- A block around a body. The depth is set back also where the body fails, but then the block is not
closed. -/
def block (header : String) (body : Writing ε α) : Writing ε α := fun w =>
  match body (w.openBlock header) with
  | .ok a inner => .ok a { inner with depth := w.depth + 1 }.closeBlock
  | .error e inner => .error e { inner with depth := w.depth }

/-- Writing whose failure is an answer like any other. -/
def attempt (body : Writing ε α) : Writing ε' (Except ε α) := fun w =>
  match body w with
  | .ok a w => .ok (.ok a) w
  | .error e w => .ok (.error e) w

/-- A block leaves the depth as it was, also where its body fails. -/
theorem depth_of_block (header : String) (body : Writing ε α) (w : Writer) :
    (match block header body w with
      | .ok _ after => after.depth
      | .error _ after => after.depth) = w.depth := by
  unfold block
  cases body (w.openBlock header) <;> rfl

end Writing
end Func
end MessageRouter
