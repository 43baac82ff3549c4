import MessageRouter.Func.Router
/-!
# `Proofs.Code.Balance` — blocks leave the depth as it was

* `Func.Writing.final`, `Func.Writing.outcome`: where writing ends and how, whether it succeeds or fails.
* `Func.Writing.final_block`: a block writes its opening line, what its body writes and, where that succeeds, its closing
  line, and sets the depth back.
* `Func.Script`: all that the body of a block can do with a writer, with failures anywhere.
* `Func.Script.grows_run`: whatever it does, text is only added.
* `Func.Function.writeWith`: the function of a receiver with any writing in place of its body.
* `Func.blocks_balanced`: so blocks, receivers and routers leave the depth as it was, and blocks only add text.
-/
namespace MessageRouter
namespace Func

/-- A line at some depth. -/
def lineText (depth : Nat) (s : String) : String := Writer.margin depth ++ (s ++ "\n")

theorem Writer.text_openBlock (header : String) (w : Writer) :
    (w.openBlock header).text = w.text ++ lineText w.depth (Writer.opening header) := rfl

/-! ## Where writing ends -/

namespace Writing

section

variable {ε ε' α β : Type}

/-- Where writing ends, whether it succeeds or fails. -/
def final (x : Writing ε α) (w : Writer) : Writer :=
  match x w with
  | .ok _ last => last
  | .error _ last => last

/-- How writing ends. -/
def outcome (x : Writing ε α) (w : Writer) : Except ε α :=
  match x w with
  | .ok a _ => .ok a
  | .error e _ => .error e

variable (x : Writing ε α) (f : α → Writing ε β) (w : Writer)

/-- Two steps end where the second does, if there is one. -/
theorem final_bind :
    final (x >>= f) w =
      match outcome x w with
      | .ok a => final (f a) (final x w)
      | .error _ => final x w := by
  simp only [final, outcome, bind, EStateM.bind]
  cases x w <;> rfl

theorem final_attempt : final (attempt x : Writing ε' (Except ε α)) w = final x w := by
  simp only [final, attempt]
  cases x w <;> rfl

/-- What a block adds behind its body. -/
def closing (depth : Nat) : Except ε α → String
  | .ok _ => lineText depth "\x7d"
  | .error _ => ""

/-- A block adds a closing line where its body succeeds, and sets the depth back. -/
theorem final_block (header : String) :
    final (block header x) w =
      ⟨(final x (w.openBlock header)).text ++ closing w.depth (outcome x (w.openBlock header)), w.depth⟩ := by
  simp only [final, outcome, block]
  cases x (w.openBlock header) with
  | ok a inner => rfl
  | error e inner => simp [closing]

/-- A block ends as its body does. -/
theorem outcome_block (header : String) : outcome (block header x) w = outcome x (w.openBlock header) := by
  simp only [outcome, block]
  cases x (w.openBlock header) <;> rfl

end

end Writing

/-! ## Writing that only adds text -/

/-- The text of a writer is the beginning of the text that a step leaves. -/
def Grows (act : Writer → Writer) : Prop := ∀ w, ∃ written, (act w).text = w.text ++ written

namespace Grows

variable {ε ε' α β : Type} {x : Writing ε α} {f : α → Writing ε β}

theorem nothing : Grows id := fun w => ⟨"", by simp⟩

/-- A second step goes on with the text that the first one leaves. -/
theorem bind (hx : Grows (Writing.final x)) (hf : ∀ a, Grows (Writing.final (f a))) :
    Grows (Writing.final (x >>= f)) := by
  intro w
  obtain ⟨first, hfirst⟩ := hx w
  rw [Writing.final_bind]
  cases Writing.outcome x w with
  | error e => exact ⟨first, hfirst⟩
  | ok a =>
    obtain ⟨rest, hrest⟩ := hf a (Writing.final x w)
    exact ⟨first ++ rest, by rw [hrest, hfirst, String.append_assoc]⟩

theorem attempt (h : Grows (Writing.final x)) :
    Grows (Writing.final (Writing.attempt x : Writing ε' (Except ε α))) := by
  intro w
  rw [Writing.final_attempt]
  exact h w

/-- A block writes its opening line, what its body writes, and what it adds behind that. -/
theorem block (header : String) (h : Grows (Writing.final x)) :
    Grows (Writing.final (Writing.block header x)) := by
  intro w
  obtain ⟨written, hwritten⟩ := h (w.openBlock header)
  rw [Writing.final_block, hwritten, Writer.text_openBlock]
  exact ⟨_, by simp only [String.append_assoc]; rfl⟩

/-- So does a block whose body cannot fail. -/
theorem scope (header : String) {act : Writer → Writer} (h : Grows act) : Grows (Writer.block header act) :=
  block header (x := (Writing.emit act : Writing Empty Unit)) h

end Grows

/-! ## Scripts -/

/-- What a writer can be asked for. -/
inductive Writer.Step where
  | line (s : String)
  | blank
  | openBlock (header : String)
  | closeBlock
  | elseBranch

def Writer.Step.act : Step → Writer → Writer
  | .line s => Writer.line s
  | .blank => Writer.blank
  | .openBlock header => Writer.openBlock header
  | .closeBlock => Writer.closeBlock
  | .elseBranch => Writer.elseBranch

/-- Every step adds one line. -/
theorem Writer.Step.grows_act (step : Step) : Grows step.act := by
  intro w
  cases step with
  | line | blank | openBlock | closeBlock | elseBranch => exact ⟨_, rfl⟩

/-- All that can be done with a writer: steps in any order, blocks within blocks whatever becomes of them, and a failure at
any point. -/
inductive Script : Type → Type 1 where
  | done {ε : Type} : Script ε
  | fail {ε : Type} (e : ε) : Script ε
  | ask {ε : Type} (step : Writer.Step) (next : Script ε) : Script ε
  /-- What follows a nested block may depend on how it ended, so a failure may be passed on or not. -/
  | block {ε ε' : Type} (header : String) (body : Script ε') (next : Except ε' Unit → Script ε) : Script ε
  /-- A nested block whose body cannot fail. -/
  | scope {ε : Type} (header : String) (body : Script Empty) (next : Script ε) : Script ε
  /-- What follows may depend on what has been written. -/
  | look {ε : Type} (next : Writer → Script ε) : Script ε

namespace Script

/-- A script as writing. -/
def run : {ε : Type} → Script ε → Writing ε Unit
  | _, done => pure ()
  | _, fail e => throw e
  | _, ask step next => do
    Writing.emit step.act
    next.run
  | _, block header body next => do
    let ended ← Writing.attempt (Writing.block header body.run)
    (next ended).run
  | _, scope header body next => do
    Writing.emit (Writer.block header (Writing.final body.run))
    next.run
  | _, look next => fun w => (next w).run w

/-- Whatever is done, and wherever it fails, text is only added. -/
theorem grows_run {ε : Type} (script : Script ε) : Grows (Writing.final script.run) := by
  -- a nested block has a script of its own, and what follows it is one script for each way in which it can end
  induction script with
  | done | fail => exact Grows.nothing
  | ask step next ih => exact Grows.bind (x := Writing.emit step.act) step.grows_act fun _ => ih
  | block header body next ihbody ihnext => exact Grows.bind (Grows.attempt (Grows.block header ihbody)) ihnext
  | scope header body next ihbody ihnext =>
    exact Grows.bind (x := Writing.emit (Writer.block header _)) (Grows.scope header ihbody) fun _ => ihnext
  | look next ih => exact fun w => ih w w

end Script

/-! ## Receivers -/

namespace Function

section

variable {ε : Type}

/-- The line that takes the fields under a binding apart, if there are any. -/
def writeUnpacked (binding : String) (fields : List Field) : Writing ε Unit :=
  if fields.isEmpty then pure () else
    Writing.line ("var " ++ tuple (fieldVariables binding fields) ++ " = " ++ Name.var binding ++ ";")

/-- The line that takes a struct apart. -/
def writeUnpackedPayload : Payload → Writing ε Unit
  | .struct binding _ fields _ _ => writeUnpacked binding fields
  | .none | .slice _ => pure ()

/-- The return that a body may have left out. -/
def writeReturn (p : Procedure) : Writing ε Unit :=
  if p.implicitReturn then
    Writing.line ("return (" ++ tuple (fieldVariables Place.self p.stateFields) ++ ", ());")
  else pure ()

/-- The function of a procedure, the body of which is written in any way. -/
def writeWith (emitComments : Bool) (p : Procedure) (lowering : Writing ε Unit) : Writing ε Unit := do
  Writing.emit (writeRemark emitComments (remarkOf p.selector))
  Writing.block (ofProcedure p).header do
    writeUnpacked Place.self p.stateFields
    writeUnpackedPayload p.payload
    lowering
    writeReturn p

end

theorem writeStmts_append (ss tt : List Stmt) :
    writeStmts (ss ++ tt) = (do writeStmts ss; writeStmts tt) := by
  induction ss with
  | nil => simp [writeStmts]
  | cons s rest ih => simp [writeStmts, ih]

theorem writeStmts_unpackFields (binding : String) (fields : List Field) :
    writeStmts (unpackFields binding fields) = writeUnpacked binding fields := by
  unfold unpackFields writeUnpacked
  split
  · rfl
  · simp [writeStmts, Stmt.write]

theorem writeStmts_unpackPayload (payload : Payload) :
    writeStmts (unpackPayload payload) = writeUnpackedPayload payload := by
  cases payload with
  | none | slice => rfl
  | struct binding message fields partly dropped => exact writeStmts_unpackFields binding fields

/-- The function of a procedure is written with the statements of its body. -/
theorem write_ofProcedure (emitComments : Bool) (p : Procedure) :
    (ofProcedure p).write emitComments =
      writeWith emitComments p (writeStmts (lowerBody (Scope.ofReceiver p.stateFields p.payload) p.body)) := by
  have hreturn : writeStmts (if p.implicitReturn then [.ret (fieldVariables Place.self p.stateFields)] else []) =
      writeReturn p := by
    unfold writeReturn
    split <;> simp [writeStmts, Stmt.write]
  have hbody : writeStmts (ofProcedure p).body = (do
      writeUnpacked Place.self p.stateFields
      writeUnpackedPayload p.payload
      writeStmts (lowerBody (Scope.ofReceiver p.stateFields p.payload) p.body)
      writeReturn p) := by
    simp [ofProcedure, writeStmts_append, writeStmts_unpackFields, writeStmts_unpackPayload, hreturn]
  rw [write, writeWith, hbody]
  rfl

theorem depth_writeRemark (emitComments : Bool) (remark : String) (w : Writer) :
    (writeRemark emitComments remark w).depth = w.depth := by
  cases emitComments <;> rfl

/-- The function of a procedure leaves the depth as it was, however its body is written. -/
theorem depth_writeWith {ε : Type} (emitComments : Bool) (p : Procedure) (lowering : Writing ε Unit) (w : Writer) :
    (Writing.final (writeWith emitComments p lowering) w).depth = w.depth := by
  unfold writeWith
  show (Writing.final (Writing.block (ofProcedure p).header _) (writeRemark emitComments _ w)).depth = _
  rw [Writing.final_block]
  exact depth_writeRemark emitComments _ w

end Function

/-- Whatever its body does, a block adds its opening line, what the body writes and, exactly if that succeeds, its closing
line; it ends as its body does and leaves the depth as it was. So do the function of a receiver, however its body is written,
and that of a router. -/
theorem blocks_balanced {ε ε' : Type} (header : String) (body : Script ε) (emitComments : Bool) (p : Procedure)
    (lowering : Writing ε' Unit) (plan : Plan) (w : Writer) :
    (∃ written,
      (Writing.final body.run (w.openBlock header)).text =
        w.text ++ lineText w.depth (Writer.opening header) ++ written ∧
      Writing.final (Writing.block header body.run) w =
        ⟨w.text ++ lineText w.depth (Writer.opening header) ++ written ++
          Writing.closing w.depth (Writing.outcome body.run (w.openBlock header)), w.depth⟩) ∧
      Writing.outcome (Writing.block header body.run) w = Writing.outcome body.run (w.openBlock header) ∧
      (Writing.final ((Function.ofProcedure p).write emitComments) w).depth = w.depth ∧
      (Writing.final (Function.writeWith emitComments p lowering) w).depth = w.depth ∧
      (writeRouter emitComments plan w).depth = w.depth := by
  -- a router is a block around its statements, and these cannot fail
  have hrouter : (writeRouter emitComments plan w).depth = w.depth := Writer.depth_block _ _ w
  refine ⟨?_, Writing.outcome_block _ w header, ?_, Function.depth_writeWith emitComments p lowering w, hrouter⟩
  · obtain ⟨written, hwritten⟩ := body.grows_run (w.openBlock header)
    rw [Writer.text_openBlock] at hwritten
    exact ⟨written, hwritten, by rw [Writing.final_block, hwritten]⟩
  · rw [Function.write_ofProcedure]
    exact Function.depth_writeWith emitComments p _ w

/-- A failure leaves the lines that the body wrote and closes nothing, however deep it happened. -/
example :
    Writing.final
        (Writing.block "f()" (Script.ask (.openBlock "if (x)") (.ask (.openBlock "if (y)") (.fail "boom"))).run) .empty =
      ⟨"f() \x7b\n    if (x) \x7b\n        if (y) \x7b\n", 0⟩ := by rfl

end Func
end MessageRouter
