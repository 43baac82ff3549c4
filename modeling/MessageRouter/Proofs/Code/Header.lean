import MessageRouter.Proofs.Code.Writing
/-!
# `Proofs.Code.Header` — headers of functions

* `spells_stackType`: the type of some fields.
* `SpellsParameters`: parameters with their types.
* `SpellsHeader`: what the header of a function spells.
* `WroteFunction`: lines that are read as a function.
* `WroteFunction.block`: a block of statements behind a header is written as a function.
-/
namespace MessageRouter
namespace Code

variable {is : List Item}

/-! ## Types -/

theorem spells_int : SpellsOperand "int".toList [.word "int"] (.var "int") :=
  .word ⟨by decide, by decide⟩ (by decide)

theorem spells_slice : SpellsOperand "slice".toList [.word "slice"] (.var "slice") :=
  .word ⟨by decide, by decide⟩ (by decide)

/-- The type of some fields, as an expression. -/
def stackExpr (fields : List Field) : List Expr := fields.map fun _ => .var "int"

/-- Every field is an integer. -/
theorem spellsParts_funcType (fields : List Field) :
    SpellsParts (fields.map (·.type.funcType)) (stackExpr fields) := by
  induction fields with
  | nil => exact .nil
  | cons f rest ih => exact .cons ⟨_, spells_int.part⟩ ih

theorem spells_stackType (fields : List Field) :
    SpellsOperand (Func.stackType fields).toList [.group (stackExpr fields)]
      (.ofParts (stackExpr fields)) :=
  .tuple (spellsParts_funcType fields)

/-! ## Parameters -/

/-- Parameters and their names. -/
def SpellsParameters (parameters names : List String) : Prop :=
  List.Forall₂ (fun text name => ∃ is type, SpellsPart text.toList is (.typed type name))
    parameters names

theorem SpellsParameters.cons {type name : String} {parameters names : List String} {e : Expr}
    (h : SpellsOperand type.toList is e) (hname : IsWord name)
    (hrest : SpellsParameters parameters names) :
    SpellsParameters ((type ++ " " ++ name) :: parameters) (name :: names) :=
  List.Forall₂.cons ⟨_, e, by simpa using h.typed hname⟩ hrest

theorem SpellsParameters.exists_parts {parameters names : List String}
    (h : SpellsParameters parameters names) :
    ∃ es, SpellsParts parameters es ∧ es.mapM Expr.parameter? = some names := by
  induction h with
  | nil => exact ⟨[], .nil, rfl⟩
  | @cons text name parameters names hpart _ ih =>
    obtain ⟨is, type, hpart⟩ := hpart
    obtain ⟨es, hes, hnames⟩ := ih
    refine ⟨.typed type name :: es, .cons ⟨is, hpart⟩ hes, ?_⟩
    rw [List.mapM_cons, hnames]
    rfl

/-! ## Functions -/

/-- What the header of a function spells. -/
structure SpellsHeader (header name : String) (names : List String) (is : List Item) : Prop where
  line : SpellsLine header is
  ofItems : ∀ body, Function.ofItems? (is ++ [.block body]) = some ⟨name, names, body⟩

/-- The header of a function that gives two things back. -/
theorem exists_spellsHeader {first second name inlining : String} {parameters names : List String}
    {is js : List Item} {e e' : Expr} (hfirst : SpellsPart first.toList is e)
    (hsecond : SpellsPart second.toList js e') (hname : IsWord name)
    (hinlining : inlining = "inline" ∨ inlining = "inline_ref")
    (hparameters : SpellsParameters parameters names) :
    ∃ ks, SpellsHeader
      ("(" ++ first ++ ", " ++ second ++ ") " ++ name ++ Func.tuple parameters ++ " impure " ++ inlining)
      name names ks := by
  obtain ⟨es, hes, hnames⟩ := hparameters.exists_parts
  have hword : IsWord inlining := by
    rcases hinlining with rfl | rfl <;> exact ⟨by decide, by decide⟩
  refine ⟨[.group [e, e'], .word name, .group es, .word "impure", .word inlining], ⟨?_, ?_⟩, ?_⟩
  · have hresult := SpellsOperand.pair hfirst hsecond
    have htail := Spells.nil.space
      ((Spells.word (w := "impure") ⟨by decide, by decide⟩).space (.word hword))
    have hheader := hresult.spells.space ((Spells.word hname).tuple hes htail)
    simpa using hheader
  · exact ⟨'(', first.toList ++ ", ".toList ++ second.toList ++ ") ".toList ++ name.toList ++
      (Func.tuple parameters).toList ++ " impure ".toList ++ inlining.toList, by simp, rfl, by decide⟩
  · intro body
    show (if _ then _ else _) = _
    rw [if_pos ⟨rfl, hinlining⟩, hnames]
    rfl

/-- A writer goes on by lines that are read as a function. -/
def WroteFunction (w w' : Func.Writer) (f : Function) : Prop :=
  ∃ is, Wrote w w' is ∧ Function.ofItems? is = some f

/-- A block of statements behind a header is written as a function; remarks may stand before it. -/
theorem WroteFunction.block {w start inner other : Func.Writer} {header name : String}
    {names : List String} {body : List Stmt} (hremarks : Wrote w start [])
    (hheader : SpellsHeader header name names is)
    (h : WroteStmts (start.openBlock header) inner body) (hother : other.text = inner.text) :
    WroteFunction w other.closeBlock ⟨name, names, body⟩ := by
  obtain ⟨js, hwrote, hspells⟩ := h
  have hblock := hremarks.trans (Wrote.block hheader.line hwrote hspells.stmts?_eq hother)
  exact ⟨is ++ [.block body], hblock, hheader.ofItems body⟩

/-- The text that is written is read as the function. -/
theorem WroteFunction.exists_text {w w' : Func.Writer} {f : Function} (h : WroteFunction w w' f) :
    ∃ text, w'.text = w.text ++ text ∧ Function.ofText? text = some f := by
  obtain ⟨is, ⟨ts, ⟨added, htext, htokens⟩, hreads⟩, hf⟩ := h
  refine ⟨String.ofList added, htext, ?_⟩
  have htokens' : tokens added = ts := by simpa using htokens []
  rw [Function.ofText?, String.toList_ofList, htokens', hreads.read_eq, Option.bind_some]
  exact hf

end Code
end MessageRouter
