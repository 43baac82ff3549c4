import MessageRouter.Func.Stmt
import MessageRouter.Proofs.Code.Writing
import MessageRouter.Proofs.Fallible
/-!
# `Proofs.Code.Body` — generated bodies are read as programs

* `Func.Expr.code`, `Func.codeAll`: the program of an expression and of some statements.
* `Func.Expr.IsNamed`, `Func.AllNamed`: every variable starts with a dollar sign, and nothing is stuck.
* `Func.Stmt.wrote`, `Func.wroteAll`: named statements are written as lines that are read as their program.
-/
namespace MessageRouter
namespace Func

open Code (SpellsOperand SpellsPart SpellsStmt IsName WroteStmts)

/-! ## Expressions -/

namespace Expr

/-- The program of an expression. -/
def code : Expr → Code.Expr
  | int i => .int i.toInt
  | bool b => .int (if b then -1 else 0)
  | var name => .var name
  | sliceBits name => .call "slice_bits" [.var name]
  | neg x => .neg x.code
  | not x => .not x.code
  | binary op a b => .binary op a.code b.code

/-- Every variable starts with a dollar sign. -/
def IsNamed : Expr → Prop
  | int _ | bool _ => True
  | var name | sliceBits name => IsName name
  | neg x | not x => x.IsNamed
  | binary _ a b => a.IsNamed ∧ b.IsNamed

/-- The text of a named expression is one operand; that of an operation stands in brackets. -/
theorem exists_spells_operation {e : Expr} (h : e.IsNamed) :
    (∃ is, SpellsOperand e.text.toList is e.code) ∧
      (e.isOperation = true → ∃ is x, SpellsPart x is e.code ∧ e.text.toList = '(' :: (x ++ [')'])) := by
  induction e with
  | int i => exact ⟨⟨_, .number _⟩, nofun⟩
  | bool b => exact ⟨⟨_, .bool b⟩, nofun⟩
  | var name => exact ⟨⟨_, .name h⟩, nofun⟩
  | sliceBits name =>
    have hcall := SpellsOperand.call (f := "slice_bits") ⟨by decide, by decide⟩ (by decide)
      (SpellsOperand.name h).part
    exact ⟨⟨_, by simpa [text, code] using hcall⟩, nofun⟩
  | neg x ih =>
    obtain ⟨⟨is, hx⟩, -⟩ := ih h
    have htext : (neg x).text.toList = '(' :: ('-' :: ' ' :: x.text.toList ++ [')']) := by simp [text]
    exact ⟨⟨_, htext ▸ hx.neg.round⟩, fun _ => ⟨_, _, hx.neg, htext⟩⟩
  | not x ih =>
    obtain ⟨⟨is, hx⟩, -⟩ := ih h
    have htext : (not x).text.toList = '(' :: ('~' :: ' ' :: x.text.toList ++ [')']) := by simp [text]
    exact ⟨⟨_, htext ▸ hx.not.round⟩, fun _ => ⟨_, _, hx.not, htext⟩⟩
  | binary op a b iha ihb =>
    obtain ⟨⟨is, ha⟩, -⟩ := iha h.1
    obtain ⟨⟨js, hb⟩, -⟩ := ihb h.2
    have hbinary := ha.binary op hb
    have htext : (binary op a b).text.toList =
        '(' :: (a.text.toList ++ ' ' :: (op.sign.toList ++ ' ' :: b.text.toList) ++ [')']) := by
      simp [text]
    exact ⟨⟨_, htext ▸ hbinary.round⟩, fun _ => ⟨_, _, hbinary, htext⟩⟩

/-- The text of a named expression is one operand. -/
theorem exists_spells {e : Expr} (h : e.IsNamed) : ∃ is, SpellsOperand e.text.toList is e.code :=
  (exists_spells_operation h).1

/-- A condition stands in brackets, be it an operation or not. -/
theorem exists_spells_condition {e : Expr} (h : e.IsNamed) :
    ∃ is x, SpellsPart x is e.code ∧ e.condition.toList = '(' :: (x ++ [')']) := by
  unfold condition
  by_cases hop : e.isOperation = true
  · rw [if_pos hop]
    exact (exists_spells_operation h).2 hop
  · rw [if_neg hop]
    obtain ⟨is, hspells⟩ := exists_spells h
    exact ⟨is, _, hspells.part, by simp⟩

/-- The line that opens a branch. -/
theorem spellsLine_if {e : Expr} (h : e.IsNamed) :
    Code.SpellsLine ("if " ++ e.condition) [.word "if", .group [e.code]] := by
  obtain ⟨is, x, hpart, htext⟩ := exists_spells_condition h
  exact Code.spellsLine_if hpart (by simp [htext])

end Expr

/-! ## Statements -/

mutual

/-- The program of a statement; a stuck one has none. -/
def Stmt.code : Stmt → List Code.Stmt
  | .unpack names source => [.declare names (.var source)]
  | .declare name value => [.declare [name] value.code]
  | .assign name value => [.assign name value.code]
  | .branch cond thenBody elseBody => [.branch cond.code (codeAll thenBody) (codeAll elseBody)]
  | .throw code => [.throw (.int code.toNat)]
  | .ret names => [.ret (.tensor [.ofParts (names.map .var), .tensor []])]
  | .stuck _ => []

/-- The program of some statements. -/
def codeAll : List Stmt → List Code.Stmt
  | [] => []
  | s :: rest => s.code ++ codeAll rest

end

mutual

/-- Every variable starts with a dollar sign, and nothing is stuck. -/
def Stmt.IsNamed : Stmt → Prop
  | .unpack names source => (∀ name ∈ names, IsName name) ∧ IsName source
  | .declare name value | .assign name value => IsName name ∧ value.IsNamed
  | .branch cond thenBody elseBody => cond.IsNamed ∧ AllNamed thenBody ∧ AllNamed elseBody
  | .throw _ => True
  | .ret names => ∀ name ∈ names, IsName name
  | .stuck _ => False

/-- Every variable starts with a dollar sign, and nothing is stuck. -/
def AllNamed : List Stmt → Prop
  | [] => True
  | s :: rest => s.IsNamed ∧ AllNamed rest

end

/-! ### Lines -/

theorem spellsStmt_unpack {names : List String} (hnames : ∀ name ∈ names, IsName name)
    {source : String} (hsource : IsName source) :
    SpellsStmt ("var " ++ tuple names ++ " = " ++ source ++ ";").toList
      (.declare names (.var source)) := by
  simpa using SpellsStmt.unpack hnames (SpellsOperand.name hsource).part

theorem spellsStmt_declare {name : String} (hname : IsName name) {value : Expr} (h : value.IsNamed) :
    SpellsStmt ("var " ++ name ++ " = " ++ value.text ++ ";").toList (.declare [name] value.code) := by
  obtain ⟨is, hvalue⟩ := Expr.exists_spells h
  simpa using SpellsStmt.declare (.inl rfl) hname.isWord hvalue.part

theorem spellsStmt_assign {name : String} (hname : IsName name) {value : Expr} (h : value.IsNamed) :
    SpellsStmt (name ++ " = " ++ value.text ++ ";").toList (.assign name value.code) := by
  obtain ⟨is, hvalue⟩ := Expr.exists_spells h
  have hne : name ∉ ["return", "throw", "var", "int"] := by
    simp only [List.mem_cons, List.not_mem_nil, or_false, not_or]
    exact ⟨hname.ne (by decide), hname.ne (by decide), hname.ne (by decide), hname.ne (by decide)⟩
  simpa using SpellsStmt.assign hname.isWord hne hvalue.part

theorem spellsStmt_throw (code : UInt16) :
    SpellsStmt ("throw(" ++ toString code.toNat ++ ");").toList (.throw (.int code.toNat)) := by
  have hcode : SpellsOperand (toString code.toNat).toList _ (.int code.toNat) :=
    .number (code.toNat : Int)
  simpa using SpellsStmt.throw hcode.part

theorem spellsStmt_ret {names : List String} (hnames : ∀ name ∈ names, IsName name) :
    SpellsStmt ("return (" ++ tuple names ++ ", ());").toList
      (.ret (.tensor [.ofParts (names.map .var), .tensor []])) := by
  have hstate := SpellsOperand.tuple (Code.spellsParts_names hnames)
  have hunit : SpellsOperand (tuple []).toList [.group []] (.tensor []) := .tuple .nil
  have hpair := SpellsOperand.pair hstate.part hunit.part
  simpa [tuple] using SpellsStmt.ret hpair.part

/-- A block around a body that succeeds is closed. -/
theorem block_eq_ok {header : String} {body : Writing ScopeError Unit} {w inner : Writer}
    (h : body (w.openBlock header) = .ok () inner) :
    Writing.block header body w = .ok () { inner with depth := w.depth + 1 }.closeBlock := by
  rw [Writing.block, h]

/-- A line that is written is read as its statement. -/
theorem wrote_line {text : String} {s : Code.Stmt} (h : SpellsStmt text.toList s) (w : Writer) :
    ∃ w', (Writing.line text : Writing ScopeError Unit) w = .ok () w' ∧ WroteStmts w w' [s] :=
  ⟨w.line text, rfl, .line h w⟩

mutual

/-- A named statement is written as lines that are read as its program. -/
theorem Stmt.wrote {s : Stmt} (h : s.IsNamed) (w : Writer) :
    ∃ w', s.write w = .ok () w' ∧ WroteStmts w w' s.code := by
  cases s with
  | unpack names source => exact wrote_line (spellsStmt_unpack h.1 h.2) w
  | declare name value => exact wrote_line (spellsStmt_declare h.1 h.2) w
  | assign name value => exact wrote_line (spellsStmt_assign h.1 h.2) w
  | throw code => exact wrote_line (spellsStmt_throw code) w
  | ret names => exact wrote_line (spellsStmt_ret h) w
  | stuck cause => exact h.elim
  | branch cond thenBody elseBody =>
    obtain ⟨hcond, hthen, helse⟩ := h
    have hheader := Expr.spellsLine_if hcond
    obtain ⟨between, hbetween, hwrote⟩ := wroteAll hthen (w.openBlock ("if " ++ cond.condition))
    -- without an else the text ends with the first block
    cases elseBody with
    | nil =>
      refine ⟨{ between with depth := w.depth + 1 }.closeBlock, ?_, ?_⟩
      · refine block_eq_ok ?_
        exact Fallible.stateful_bind_eq_ok_iff.mpr ⟨(), between, hbetween, rfl⟩
      · exact WroteStmts.branch hheader hwrote rfl
    | cons s rest =>
      obtain ⟨inner, hinner, hwrote'⟩ := wroteAll helse between.elseBranch
      refine ⟨{ inner with depth := w.depth + 1 }.closeBlock, ?_, ?_⟩
      · refine block_eq_ok ?_
        refine Fallible.stateful_bind_eq_ok_iff.mpr ⟨(), between, hbetween, ?_⟩
        exact Fallible.stateful_bind_eq_ok_iff.mpr ⟨(), between.elseBranch, rfl, hinner⟩
      · exact WroteStmts.branchElse hheader hwrote hwrote' rfl

/-- Named statements are written as lines that are read as their program. -/
theorem wroteAll {ss : List Stmt} (h : AllNamed ss) (w : Writer) :
    ∃ w', writeStmts ss w = .ok () w' ∧ WroteStmts w w' (codeAll ss) := by
  cases ss with
  | nil => exact ⟨w, rfl, .refl w⟩
  | cons s rest =>
    obtain ⟨w', hw', hwrote⟩ := Stmt.wrote h.1 w
    obtain ⟨w'', hw'', hwrote'⟩ := wroteAll h.2 w'
    exact ⟨w'', Fallible.stateful_bind_eq_ok_iff.mpr ⟨(), w', hw', hw''⟩, hwrote.trans hwrote'⟩

end

end Func
end MessageRouter
