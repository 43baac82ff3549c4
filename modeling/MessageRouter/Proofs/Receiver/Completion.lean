import MessageRouter.Proofs.Receiver.Text
/-!
# `Proofs.Receiver.Completion` — a receiver whose body was checked is written to its end

Names need not be allowed here: whatever the fields, the payload and the locals are called, the check of a body
and the writing of it decide alike what a place stands for.

* `Func.Stmt.IsComplete`, `Func.AllComplete`: nothing is stuck.
* `Func.allComplete_lowerBody`: a checked body is lowered to complete statements.
* `Func.exists_writeStmts`: complete statements are written.
* `Contract.exists_write`: so is the function of every procedure.
-/
namespace MessageRouter
namespace Func

/-! ## Complete statements -/

mutual

/-- Nothing in a statement is stuck. -/
def Stmt.IsComplete : Stmt → Prop
  | .branch _ thenBody elseBody => AllComplete thenBody ∧ AllComplete elseBody
  | .stuck _ => False
  | .unpack .. | .declare .. | .assign .. | .throw _ | .ret _ => True

/-- Nothing in some statements is stuck. -/
def AllComplete : List Stmt → Prop
  | [] => True
  | s :: rest => s.IsComplete ∧ AllComplete rest

end

theorem allComplete_append {ss tt : List Stmt} (hs : AllComplete ss) (ht : AllComplete tt) :
    AllComplete (ss ++ tt) := by
  induction ss with
  | nil => exact ht
  | cons s rest ih => exact ⟨hs.1, ih hs.2⟩

mutual

/-- A checked statement is lowered to a complete one. -/
theorem isComplete_lowerStmt {s t : Scope} (st : MessageRouter.Stmt) (h : checkStmt st s = .ok () t) :
    (lowerStmt s st).IsComplete := by
  cases st with
  | declare name value =>
    obtain ⟨e, -, heq⟩ := lowerStmt_declare h
    rw [heq]
    trivial
  | set target value =>
    obtain ⟨b, e, -, -, heq⟩ := lowerStmt_set h
    rw [heq]
    trivial
  | branch cond thenBody elseBody =>
    obtain ⟨e, -, heq⟩ := lowerStmt_branch h
    obtain ⟨-, ⟨u, hthen⟩, ⟨v, helse⟩, -⟩ := checkStmt_branch h
    rw [heq]
    exact ⟨allComplete_lowerBody thenBody hthen, allComplete_lowerBody elseBody helse⟩
  | throw code | ret =>
    rw [lowerStmt]
    trivial

/-- A checked body is lowered to complete statements. -/
theorem allComplete_lowerBody {s t : Scope} (body : List MessageRouter.Stmt)
    (h : checkBody body s = .ok () t) : AllComplete (lowerBody s body) := by
  cases body with
  | nil => trivial
  | cons st rest =>
    obtain ⟨u, hst, hrest⟩ := checkBody_cons h
    rw [lowerBody_cons hst]
    exact ⟨isComplete_lowerStmt st hst, allComplete_lowerBody rest hrest⟩

end

/-! ## Writing -/

/-- A block is written if its body is. -/
theorem exists_block {header : String} {body : Writing ScopeError Unit} {w : Writer}
    (h : ∃ inner, body (w.openBlock header) = .ok () inner) :
    ∃ w', Writing.block header body w = .ok () w' := by
  obtain ⟨inner, hinner⟩ := h
  exact ⟨_, block_eq_ok hinner⟩

mutual

/-- A complete statement is written. -/
theorem Stmt.exists_write {s : Stmt} (h : s.IsComplete) (w : Writer) :
    ∃ w', s.write w = .ok () w' := by
  cases s with
  | unpack names source | declare name value | assign name value | throw code | ret names =>
    exact ⟨_, rfl⟩
  | stuck cause => exact h.elim
  | branch cond thenBody elseBody =>
    refine exists_block ?_
    obtain ⟨between, hthen⟩ := exists_writeStmts h.1 (w.openBlock ("if " ++ cond.condition))
    -- without an else the text ends with the first block
    cases elseBody with
    | nil => exact ⟨between, Fallible.stateful_bind_eq_ok_iff.mpr ⟨(), between, hthen, rfl⟩⟩
    | cons s rest =>
      obtain ⟨inner, helse⟩ := exists_writeStmts h.2 between.elseBranch
      refine ⟨inner, Fallible.stateful_bind_eq_ok_iff.mpr ⟨(), between, hthen, ?_⟩⟩
      exact Fallible.stateful_bind_eq_ok_iff.mpr ⟨(), between.elseBranch, rfl, helse⟩

/-- Complete statements are written. -/
theorem exists_writeStmts {ss : List Stmt} (h : AllComplete ss) (w : Writer) :
    ∃ w', writeStmts ss w = .ok () w' := by
  cases ss with
  | nil => exact ⟨w, rfl⟩
  | cons s rest =>
    obtain ⟨between, hs⟩ := Stmt.exists_write h.1 w
    obtain ⟨w', hrest⟩ := exists_writeStmts h.2 between
    exact ⟨w', Fallible.stateful_bind_eq_ok_iff.mpr ⟨(), between, hs, hrest⟩⟩

end

/-! ## Functions -/

theorem allComplete_unpackFields (binding : String) (fields : List Field) :
    AllComplete (Function.unpackFields binding fields) := by
  unfold Function.unpackFields
  split
  · trivial
  · exact ⟨trivial, trivial⟩

/-- A procedure whose body was checked becomes a complete function. -/
theorem allComplete_ofProcedure {p : Procedure} {t : Scope}
    (h : checkBody p.body (Scope.ofReceiver p.stateFields p.payload) = .ok () t) :
    AllComplete (Function.ofProcedure p).body := by
  refine allComplete_append (allComplete_append (allComplete_append ?_ ?_) ?_) ?_
  · exact allComplete_unpackFields Place.self p.stateFields
  · cases p.payload with
    | none | slice => trivial
    | struct binding message fields isPartial dropped => exact allComplete_unpackFields binding fields
  · exact allComplete_lowerBody p.body h
  · split
    · exact ⟨trivial, trivial⟩
    · trivial

/-- A complete function is written. -/
theorem Function.exists_write {f : Function} (h : AllComplete f.body) (emitComments : Bool)
    (w : Writer) : ∃ w', f.write emitComments w = .ok () w' := by
  obtain ⟨w', hblock⟩ := exists_block (exists_writeStmts h
    ((writeRemark emitComments f.remark w).openBlock f.header))
  exact ⟨w', Fallible.stateful_bind_eq_ok_iff.mpr ⟨(), _, rfl, hblock⟩⟩

end Func

namespace Contract

/-- The function of a procedure is written, whatever was written before it. -/
theorem exists_write {c : Contract} {registry : Registry} {index : Nat} {p : Procedure}
    (h : c.procedure registry index = .ok p) (emitComments : Bool) (w : Func.Writer) :
    ∃ w', (Func.Function.ofProcedure p).write emitComments w = .ok () w' := by
  obtain ⟨r, function, payload, -, -, -, hcheck, rfl⟩ := procedure_eq_ok h
  obtain ⟨t, ht⟩ := checkBody_of_checkReceiver hcheck
  exact Func.Function.exists_write (Func.allComplete_ofProcedure ht) emitComments w

end Contract
end MessageRouter
