import MessageRouter.Func.Router
import MessageRouter.Proofs.Fallible
/-!
# `Proofs.Code.Placement` — what is written does not depend on the text before it

* `Func.Writer.behind`: a writer with more text in front.
* `Func.Placeable`: writing that does the same behind any text.
* `Func.placeable_writeStmts`, `Func.RouterStmt.writeAll_behind`: so do the statements of receivers and of routers.
* `Func.Function.write_behind`, `Func.writeRouter_behind`: so do their functions.
-/
namespace MessageRouter
namespace Func

namespace Writer

/-- The writer with more text in front. -/
def behind (front : String) (w : Writer) : Writer := { w with text := front ++ w.text }

variable (front : String) (w : Writer)

theorem line_behind (s : String) : (w.behind front).line s = (w.line s).behind front := by
  simp [line, behind, String.append_assoc]

theorem blank_behind : (w.behind front).blank = w.blank.behind front := by
  simp [blank, behind, String.append_assoc]

theorem openBlock_behind (header : String) :
    (w.behind front).openBlock header = (w.openBlock header).behind front := by
  simp [openBlock, line, behind, String.append_assoc]

theorem closeBlock_behind : (w.behind front).closeBlock = w.closeBlock.behind front := by
  simp [closeBlock, line, behind, String.append_assoc]

theorem elseBranch_behind : (w.behind front).elseBranch = w.elseBranch.behind front := by
  simp [elseBranch, line, behind, String.append_assoc]

/-- A block does the same behind any text if its body does. -/
theorem block_behind (header : String) {body : Writer → Writer}
    (h : ∀ w, body (w.behind front) = (body w).behind front) :
    (w.behind front).block header body = (w.block header body).behind front := by
  unfold block
  rw [openBlock_behind, h]
  exact closeBlock_behind front { body (w.openBlock header) with depth := w.depth + 1 }

end Writer

/-! ## Writing that may fail -/

/-- Writing that does the same behind any text, where it succeeds. -/
def Placeable {ε : Type} (x : Writing ε Unit) : Prop :=
  ∀ front w w', x w = .ok () w' → x (w.behind front) = .ok () (w'.behind front)

namespace Placeable

variable {ε : Type} {x y : Writing ε Unit}

theorem nothing : Placeable (pure () : Writing ε Unit) := by
  intro front w w' h
  cases h
  rfl

theorem bind (hx : Placeable x) (hy : Placeable y) : Placeable (x >>= fun _ => y) := by
  intro front w w' h
  obtain ⟨_, between, hfirst, hrest⟩ := Fallible.stateful_bind_eq_ok_iff.mp h
  exact Fallible.stateful_bind_eq_ok_iff.mpr ⟨(), _, hx front w between hfirst, hy front between w' hrest⟩

theorem emit {f : Writer → Writer} (h : ∀ front w, f (w.behind front) = (f w).behind front) :
    Placeable (Writing.emit f : Writing ε Unit) := by
  intro front w w' hw
  cases hw
  exact congrArg _ (h front w)

theorem line (s : String) : Placeable (Writing.line s : Writing ε Unit) :=
  emit fun front w => w.line_behind front s

theorem fail (e : ε) : Placeable (throw e : Writing ε Unit) := by
  intro front w w' h
  cases h

theorem block (header : String) (h : Placeable x) : Placeable (Writing.block header x) := by
  intro front w w' hw
  unfold Writing.block at hw ⊢
  rw [Writer.openBlock_behind]
  cases hbody : x (w.openBlock header) with
  | error e inner =>
    rw [hbody] at hw
    cases hw
  | ok _ inner =>
    rw [hbody] at hw
    cases hw
    rw [h front _ inner hbody]
    exact congrArg (EStateM.Result.ok ())
      (Writer.closeBlock_behind front { inner with depth := w.depth + 1 })

end Placeable

/-! ## Receivers -/

mutual

/-- A statement of a receiver is written the same behind any text. -/
theorem Stmt.placeable_write (s : Stmt) : Placeable s.write := by
  cases s with
  | unpack | declare | assign | throw | ret => exact .line _
  | stuck cause => exact .fail cause
  | branch cond thenBody elseBody =>
    refine .block _ (.bind (placeable_writeStmts thenBody) ?_)
    -- without an else the block ends here
    cases elseBody with
    | nil => exact .nothing
    | cons s rest =>
      exact .bind (.emit fun front w => w.elseBranch_behind front) (placeable_writeStmts (s :: rest))

/-- Statements of a receiver are written the same behind any text. -/
theorem placeable_writeStmts (ss : List Stmt) : Placeable (writeStmts ss) := by
  cases ss with
  | nil => exact .nothing
  | cons s rest => exact .bind s.placeable_write (placeable_writeStmts rest)

end

theorem Function.writeRemark_behind (emitComments : Bool) (remark front : String) (w : Writer) :
    writeRemark emitComments remark (w.behind front) = (writeRemark emitComments remark w).behind front := by
  cases emitComments with
  | true => exact w.line_behind front _
  | false => rfl

/-- The function of a receiver is written the same behind any text. -/
theorem Function.placeable_write (emitComments : Bool) (f : Function) : Placeable (f.write emitComments) :=
  .bind (.emit fun front w => writeRemark_behind emitComments f.remark front w)
    (.block f.header (placeable_writeStmts f.body))

/-! ## Routers -/

mutual

/-- A statement of a router is written the same behind any text. -/
theorem RouterStmt.write_behind (emitComments : Bool) (s : RouterStmt) (front : String) (w : Writer) :
    s.write emitComments (w.behind front) = (s.write emitComments w).behind front := by
  cases s with
  | remark text => exact Function.writeRemark_behind emitComments text front w
  | blank => exact w.blank_behind front
  | declareOpcode | peekOpcode | skipMarker | readStruct | hashMessage | call | answer =>
    exact w.line_behind front _
  | branch question body =>
    exact w.block_behind front _ fun w => RouterStmt.writeAll_behind emitComments body front w

/-- Statements of a router are written the same behind any text. -/
theorem RouterStmt.writeAll_behind (emitComments : Bool) (ss : List RouterStmt) (front : String) (w : Writer) :
    writeAll emitComments ss (w.behind front) = (writeAll emitComments ss w).behind front := by
  cases ss with
  | nil => rfl
  | cons s rest =>
    rw [RouterStmt.writeAll, RouterStmt.writeAll, RouterStmt.write_behind]
    exact RouterStmt.writeAll_behind emitComments rest front _

end

/-- A router is written the same behind any text. -/
theorem writeRouter_behind (emitComments : Bool) (p : Plan) (front : String) (w : Writer) :
    writeRouter emitComments p (w.behind front) = (writeRouter emitComments p w).behind front :=
  w.block_behind front _ fun w => RouterStmt.writeAll_behind emitComments _ front w

end Func
end MessageRouter
