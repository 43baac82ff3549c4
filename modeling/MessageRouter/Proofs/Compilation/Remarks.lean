import MessageRouter.Proofs.Code.Remarks
import MessageRouter.Proofs.Compilation.Acceptance
import MessageRouter.Proofs.Router.Text
/-!
# `Proofs.Compilation.Remarks` — what remarks change in generated text

* `Func.Stmt.keepsBare`, `Func.keepsBare_writeStmts`: the statements of a receiver are never taken for remarks.
* `Func.RouterStmt.isBare_write`, `Func.RouterStmt.isBare_writeAll`: nor are those of a router, and its remarks are
  taken for nothing else.
* `Procedure.keepsBare_write`, `isBare_writeRouters`: so it is with whole functions.
* `Program.compile_withoutRemarks`: with and without remarks a contract is accepted or rejected alike, and the texts are
  the same but for the remarks.
-/
namespace MessageRouter

open Code (IsBare IsCodeLine KeepsBare)

namespace Func

/-! ## Receivers -/

mutual

/-- The lines of a named statement are never taken for remarks. -/
theorem Stmt.keepsBare {s : Stmt} (h : s.IsNamed) : KeepsBare s.write s.write := by
  cases s with
  | unpack names source => exact .line (spellsStmt_unpack h.1 h.2).isCodeLine
  | declare name value => exact .line (spellsStmt_declare h.1 h.2).isCodeLine
  | assign name value => exact .line (spellsStmt_assign h.1 h.2).isCodeLine
  | throw code => exact .line (spellsStmt_throw code).isCodeLine
  | ret names => exact .line (spellsStmt_ret h).isCodeLine
  | stuck cause => exact h.elim
  | branch cond thenBody elseBody =>
    obtain ⟨hcond, hthen, helse⟩ := h
    refine .block (Expr.spellsLine_if hcond).isCodeLine (.bind (keepsBare_writeStmts hthen) ?_)
    -- without an else the block ends here
    cases elseBody with
    | nil => exact .nothing
    | cons s rest => exact .bind (.emit fun hbare => hbare.elseBranch) (keepsBare_writeStmts helse)

/-- The lines of named statements are never taken for remarks. -/
theorem keepsBare_writeStmts {ss : List Stmt} (h : AllNamed ss) :
    KeepsBare (writeStmts ss) (writeStmts ss) := by
  cases ss with
  | nil => exact .nothing
  | cons s rest => exact .bind (Stmt.keepsBare h.1) (keepsBare_writeStmts h.2)

end

/-- The function of a procedure is the same with its remark and without it. -/
theorem Function.keepsBare_write {p : Procedure} (h : p.WellFormed) :
    KeepsBare ((ofProcedure p).write true) ((ofProcedure p).write false) := by
  obtain ⟨is, hheader⟩ := exists_spellsHeader h
  exact .bind (.emit fun hbare => hbare.remark h.remark)
    (.block hheader.line.isCodeLine (keepsBare_writeStmts (allNamed_ofProcedure h)))

/-! ## Routers -/

namespace RouterStmt

mutual

/-- A named statement is the same with and without remarks, unless it is one. -/
theorem isBare_write {s : RouterStmt} (h : s.IsNamed) {full bare : Writer} (hbare : IsBare full bare) :
    IsBare (s.write true full) (s.write false bare) := by
  cases s with
  | remark text => exact hbare.remark h
  | blank => exact hbare.blank
  | declareOpcode => exact hbare.line spellsStmt_declareOpcode.isCodeLine
  | peekOpcode => exact hbare.line spellsStmt_peekOpcode.isCodeLine
  | skipMarker => exact hbare.line spellsStmt_skipMarker.isCodeLine
  | readStruct reader => exact hbare.line (spellsStmt_readStruct h).isCodeLine
  | hashMessage => exact hbare.line spellsStmt_hashMessage.isCodeLine
  | call function argument => exact hbare.line (spellsStmt_call h argument).isCodeLine
  | answer handled => exact hbare.line (spellsStmt_answer handled).isCodeLine
  | branch question body =>
    exact hbare.block (Question.spellsLine_if h.1).isCodeLine fun hinner => isBare_writeAll h.2 hinner

/-- Named statements are the same with and without remarks, but for those among them. -/
theorem isBare_writeAll {ss : List RouterStmt} (h : AllNamed ss) {full bare : Writer}
    (hbare : IsBare full bare) :
    IsBare (writeAll true ss full) (writeAll false ss bare) := by
  cases ss with
  | nil => exact hbare
  | cons s rest => exact isBare_writeAll h.2 (isBare_write h.1 hbare)

end

end RouterStmt

/-- The router of a named plan is the same with and without its remarks. -/
theorem isBare_writeRouter {p : Plan} (hfunction : Code.IsName p.function)
    (h : RouterStmt.AllNamed (RouterStmt.ofPlan p)) {full bare : Writer} (hbare : IsBare full bare) :
    IsBare (writeRouter true p full) (writeRouter false p bare) := by
  obtain ⟨is, hheader⟩ := exists_spellsHeader_router hfunction
  exact hbare.block hheader.line.isCodeLine fun hinner => RouterStmt.isBare_writeAll h hinner

end Func

/-! ## Contracts -/

theorem Procedure.keepsBare_write {p : Procedure} (h : p.WellFormed) :
    KeepsBare (p.write true) (p.write false) := by
  intro full bare hbare
  obtain ⟨full', bare', hfull, hbare', hafter⟩ := Func.Function.keepsBare_write h _ _ hbare
  refine ⟨full'.blank, bare'.blank, ?_, ?_, hafter.blank⟩
  · rw [write, hfull]
  · rw [write, hbare']

theorem isBare_writeRouters {plans : List Plan}
    (h : ∀ p ∈ plans, Code.IsName p.function ∧ Func.RouterStmt.AllNamed (Func.RouterStmt.ofPlan p))
    {full bare : Func.Writer} (hbare : IsBare full bare) :
    IsBare (writeRouters true plans full) (writeRouters false plans bare) := by
  induction plans generalizing full bare with
  | nil => exact hbare
  | cons p rest ih =>
    obtain ⟨hp, hrest⟩ := List.forall_mem_cons.mp h
    have hfirst := Func.isBare_writeRouter hp.1 hp.2 hbare
    cases rest with
    | nil => exact hfirst
    | cons q rest => exact ih hrest hfirst.blank

/-- The text of procedures and plans is the same with and without remarks. -/
theorem Contract.withoutRemarks_writtenText {plans : List Plan} {ps : List Procedure}
    (hps : ∀ p ∈ ps, KeepsBare (p.write true) (p.write false))
    (hplans : ∀ p ∈ plans,
      Code.IsName p.function ∧ Func.RouterStmt.AllNamed (Func.RouterStmt.ofPlan p)) :
    Code.withoutRemarks (writtenText true plans ps).toList = (writtenText false plans ps).toList := by
  obtain ⟨full, bare, hfull, hbare, hafter⟩ := KeepsBare.forM hps _ _ .empty
  have hfull' : (ps.forM (Procedure.write true)).run .empty = .ok () full := hfull
  have hbare' : (ps.forM (Procedure.write false)).run .empty = .ok () bare := hbare
  rw [writtenText, writtenText, hfull', hbare']
  exact (isBare_writeRouters hplans hafter).withoutRemarks_eq

/-- With and without remarks a well-formed contract is accepted or rejected alike. -/
theorem Contract.alike_compile_remarks {c : Contract} {registry : Registry}
    (hregistry : registry.WellFormed) (hc : c.WellFormed) (directions : List Direction) :
    Fallible.Alike
      (fun full bare => Code.withoutRemarks full.text.toList = bare.text.toList ∧
        full.stats.receivers = bare.stats.receivers ∧ full.stats.routers = bare.stats.routers)
      (c.compile registry ⟨true, directions⟩) (c.compile registry ⟨false, directions⟩) := by
  rw [compile_eq, compile_eq]
  -- the plans and the procedures do not depend on remarks, so only their texts are compared
  refine (Fallible.Alike.self (c.plans registry _)).bind ?_
  rintro plans _ ⟨rfl, hplans⟩
  refine (Fallible.Alike.self (c.procedures registry _)).bind ?_
  rintro ps _ ⟨rfl, hps⟩
  refine .ok ⟨withoutRemarks_writtenText ?_ ?_, rfl, rfl⟩
  · intro p hp
    obtain ⟨_, _, -, -, hproc⟩ := exists_procedure_of_mem_procedures hps hp
    exact Procedure.keepsBare_write (wellFormed_procedure hregistry hc hproc)
  · intro p hp
    obtain ⟨d, -, hd⟩ := Fallible.exists_of_mem_mapM hplans hp
    exact Func.allNamed_router hregistry hc hd

/-- Remarks never change the code of a contract, whatever its comments say. With and without them the contract is
accepted or rejected alike, with the same fault. The text with remarks is the text without them once the lines are left
out whose first characters after blanks are two semicolons, and as many receivers and routers are counted. -/
theorem Program.compile_withoutRemarks {doc : Json} {p : Program} (h : Program.ofJson doc = .ok p)
    {c : Contract} (hc : c ∈ p.contracts) (directions : List Direction) :
    ((∃ full, c.compile p.registry ⟨true, directions⟩ = .ok full) ↔
        ∃ bare, c.compile p.registry ⟨false, directions⟩ = .ok bare) ∧
      (∀ fault, c.compile p.registry ⟨true, directions⟩ = .error fault ↔
        c.compile p.registry ⟨false, directions⟩ = .error fault) ∧
      ∀ full bare, c.compile p.registry ⟨true, directions⟩ = .ok full →
        c.compile p.registry ⟨false, directions⟩ = .ok bare →
        Code.withoutRemarks full.text.toList = bare.text.toList ∧
          full.stats.receivers = bare.stats.receivers ∧ full.stats.routers = bare.stats.routers := by
  have hp := wellFormed_of_ofJson h
  have halike := c.alike_compile_remarks hp.registry (hp.contracts c hc) directions
  refine ⟨halike.exists_ok_iff, halike.eq_error_iff, fun full bare hfull hbare => ?_⟩
  rw [hfull, hbare] at halike
  cases halike with
  | ok hsame => exact hsame

/-! ## A comment that looks like code -/

/-- Takes a comment that would end its remark and go on as code, were it not quoted. -/
def Contract.heckler : Contract :=
  ⟨"Heckler", [], [⟨.comment .internal "\"\n\x7d;;é\n", [], none⟩]⟩

/-- A document of it. -/
def hecklerDocument : Json :=
  .object [("schema_version", .string documentSchema),
    ("contracts", .array [.object [("name", .string "Heckler"), ("fields", .array []),
      ("receivers", .array [.object [("selector", .object [("kind", .string "internal-comment"),
        ("text", .string "\"\n\x7d;;é\n")])]])]])]

/-- Its code is generated with remarks and without, and is the same. -/
theorem Program.compile_withoutRemarks_heckler :
    ∃ p full bare, Program.ofJson hecklerDocument = .ok p ∧ Contract.heckler ∈ p.contracts ∧
      Contract.heckler.compile p.registry ⟨true, Direction.all⟩ = .ok full ∧
      Contract.heckler.compile p.registry ⟨false, Direction.all⟩ = .ok bare ∧
      Code.withoutRemarks full.text.toList = bare.text.toList := by
  have hread : Program.ofJson hecklerDocument = .ok ⟨.empty, [.heckler]⟩ := rfl
  have hplans : Contract.heckler.plans .empty (Options.wants ⟨true, Direction.all⟩) = .ok _ := rfl
  have hps : Contract.heckler.procedures .empty (Options.wants ⟨true, Direction.all⟩) = .ok _ := rfl
  obtain ⟨-, text, -, -, hfull⟩ := Contract.exists_compile hplans hps
  obtain ⟨halike, -, hsame⟩ := compile_withoutRemarks hread List.mem_cons_self Direction.all
  obtain ⟨bare, hbare⟩ := halike.mp ⟨_, hfull⟩
  exact ⟨_, _, bare, hread, List.mem_cons_self, hfull, hbare, (hsame _ bare hfull hbare).1⟩

end MessageRouter
