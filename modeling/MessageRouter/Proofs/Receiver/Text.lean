import MessageRouter.Func.Function
import MessageRouter.Proofs.Code.Header
import MessageRouter.Proofs.Plan.Route
import MessageRouter.Proofs.Receiver.Lowering
/-!
# `Proofs.Receiver.Text` — the text of a receiver is read as its function

* `Procedure.WellFormed`: a procedure of allowed names whose body was checked.
* `Contract.wellFormed_procedure`: every procedure of a well-formed contract is so.
* `Func.Function.program`: the program of a function.
* `Func.Function.exists_wroteFunction`: a well-formed procedure is written as lines that are read as its program.
-/
namespace MessageRouter

open Identifier (IsValid)

/-! ## Remarks -/

/-- A remark is one line. -/
theorem Func.Function.newline_notMem_remarkOf {s : Selector}
    (h : ∀ message, s.message? = some message → IsValid .typeName message) :
    '\n' ∉ (remarkOf s).toList := by
  cases s with
  | message d message binding =>
    exact newline_notMem_append (newline_notMem_append (by decide)
      (newline_notMem_of_isValid (h message rfl))) (by decide)
  | comment d text =>
    exact newline_notMem_append (newline_notMem_append (by decide) (Text.newline_notMem_quoted text))
      (by decide)
  | bounced message binding isPartial =>
    exact newline_notMem_append (newline_notMem_append (by decide)
      (newline_notMem_of_isValid (h message rfl))) (by decide)
  | empty d =>
    show '\n' ∉ "Receive empty message".toList
    decide
  | anyComment d binding =>
    show '\n' ∉ "Receive any text message".toList
    decide
  | any d binding =>
    show '\n' ∉ "Receive any message".toList
    decide
  | anyBounced binding =>
    show '\n' ∉ "Bounced handler for any message".toList
    decide

/-! ## Well-formed procedures -/

/-- A procedure of allowed names whose body was checked. -/
structure Procedure.WellFormed (p : Procedure) : Prop where
  function : Code.IsName p.function
  remark : '\n' ∉ (Func.Function.remarkOf p.selector).toList
  scope : (Scope.ofReceiver p.stateFields p.payload).IsNamed
  body : BodyIsNamed p.body
  checks : ∃ t, checkBody p.body (Scope.ofReceiver p.stateFields p.payload) = .ok () t
  implicitReturn : p.implicitReturn = !endsInReturn p.body

theorem FieldsWellFormed.of_prefix {fields kept : List Field} (h : FieldsWellFormed fields)
    (hkept : kept <+: fields) : FieldsWellFormed kept where
  valid f hf := h.valid f (hkept.subset hf)
  nodup := (hkept.sublist.map _).nodup h.nodup

namespace Contract

variable {c : Contract} {registry : Registry} {s : Selector} {payload : Payload}

/-- The payload of a named selector is named. -/
theorem isNamed_payload (hregistry : registry.WellFormed) (hs : s.IsNamed)
    (h : Contract.payload registry s = .ok payload) : payload.IsNamed := by
  have hlayout {name : String} {l : Layout} (hl : registry.layout name = .ok l) (isPartial : Bool) :
      FieldsWellFormed (l.fields isPartial) := by
    have hfields := hregistry.fields _ (Registry.mem_of_layout hl).1
    cases isPartial with
    | false => exact hfields
    | true => exact hfields.of_prefix <| keptFields_prefix _
  cases payload_eq_ok_iff.mp h with
  | message hl => exact ⟨hs, hlayout hl false⟩
  | bounced hl => exact ⟨hs, hlayout hl _⟩
  | empty | comment => trivial
  | anyComment | any | anyBounced => exact hs

/-- A receiver with a payload is for a message of an allowed name, if it is for one. -/
theorem isValid_message (hregistry : registry.WellFormed)
    (h : Contract.payload registry s = .ok payload) {name : String} (hname : s.message? = some name) :
    IsValid .typeName name := by
  obtain ⟨l, hl⟩ := exists_layout_of_payload h hname
  exact Registry.isValid_of_layout hregistry hl

/-- Every procedure of a well-formed contract is well formed. -/
theorem wellFormed_procedure (hregistry : registry.WellFormed) (hc : c.WellFormed) {index : Nat}
    {p : Procedure} (h : c.procedure registry index = .ok p) : p.WellFormed := by
  obtain ⟨r, function, payload, hr, hfunction, hpayload, hcheck, rfl⟩ := procedure_eq_ok h
  have hmem : r ∈ c.receivers := List.mem_of_getElem? hr
  have hmessage : ∀ name, r.selector.message? = some name → IsValid .typeName name :=
    fun _ hname => isValid_message hregistry hpayload hname
  constructor
  · exact isName_functionName hc.name hmessage hfunction
  · exact Func.Function.newline_notMem_remarkOf hmessage
  · exact Scope.isNamed_ofReceiver hc.fields (isNamed_payload hregistry (hc.selectors r hmem) hpayload)
  · exact hc.bodies r hmem
  · exact checkBody_of_checkReceiver hcheck
  · rfl

end Contract

/-! ## Functions -/

namespace Func
namespace Function

variable {p : Procedure}

/-- The program of a function. -/
def program (f : Function) : Code.Function :=
  ⟨f.name, (f.state :: f.payload.toList).map (·.name), codeAll f.body⟩

/-- Parameters are the state and the payload, with their types. -/
theorem spellsParameters (h : (Scope.ofReceiver p.stateFields p.payload).IsNamed) :
    Code.SpellsParameters (ofProcedure p).parameters
      (((ofProcedure p).state :: (ofProcedure p).payload.toList).map (·.name)) := by
  have hself := (Name.isName_var Place.isValid_self).isWord
  refine .cons (Code.spells_stackType p.stateFields) hself ?_
  show Code.SpellsParameters ((payloadParameter p.payload).toList.map _)
    ((payloadParameter p.payload).toList.map _)
  have hpayload : p.payload.IsNamed := h.payload
  cases hp : p.payload with
  | none => exact .nil
  | struct binding message fields isPartial dropped =>
    rw [hp] at hpayload
    exact .cons (Code.spells_stackType fields) (Name.isName_var hpayload.1.1).isWord .nil
  | slice binding =>
    rw [hp] at hpayload
    exact .cons Code.spells_slice (Name.isName_var hpayload.1).isWord .nil

theorem allNamed_unpackFields {binding : String} (hbinding : IsValid .localName binding)
    {fields : List Field} (h : FieldsWellFormed fields) : AllNamed (unpackFields binding fields) := by
  unfold unpackFields
  split
  · trivial
  · exact ⟨⟨isName_fieldVariables hbinding h, Name.isName_var hbinding⟩, trivial⟩

theorem allNamed_append {ss tt : List Stmt} (hs : AllNamed ss) (ht : AllNamed tt) :
    AllNamed (ss ++ tt) := by
  induction ss with
  | nil => exact ht
  | cons s rest ih => exact ⟨hs.1, ih hs.2⟩

/-- Nothing in the function of a well-formed procedure is stuck. -/
theorem allNamed_ofProcedure (h : p.WellFormed) : AllNamed (ofProcedure p).body := by
  obtain ⟨t, ht⟩ := h.checks
  have hpayload : p.payload.IsNamed := h.scope.payload
  refine allNamed_append (allNamed_append (allNamed_append ?_ ?_) ?_) ?_
  · exact allNamed_unpackFields Place.isValid_self h.scope.state
  · cases hp : p.payload with
    | none | slice => trivial
    | struct binding message fields isPartial dropped =>
      rw [hp] at hpayload
      exact allNamed_unpackFields hpayload.1.1 hpayload.2
  · exact allNamed_lowerBody p.body h.scope h.body ht
  · split
    · exact ⟨isName_fieldVariables Place.isValid_self h.scope.state, trivial⟩
    · trivial

/-- The line that opens the function. -/
theorem exists_spellsHeader (h : p.WellFormed) :
    ∃ is, Code.SpellsHeader (ofProcedure p).header p.function (ofProcedure p).program.parameters is := by
  have hunit : Code.SpellsOperand (tuple []).toList _ _ := .tuple .nil
  have htype : (ofProcedure p).header = "(" ++ stackType p.stateFields ++ ", " ++ tuple [] ++ ") " ++
      p.function ++ tuple (ofProcedure p).parameters ++ " impure " ++ "inline" := by
    apply String.toList_inj.mp
    simp [header, ofProcedure, stateParameter, tuple]
  rw [htype]
  exact Code.exists_spellsHeader (Code.spells_stackType p.stateFields).part
    hunit.part h.function.isWord (.inl rfl) (spellsParameters h.scope)

/-- A well-formed procedure is written as lines that are read as its program. -/
theorem exists_wroteFunction (h : p.WellFormed) (emitComments : Bool) (w : Writer) :
    ∃ w', (ofProcedure p).write emitComments w = .ok () w' ∧
      Code.WroteFunction w w' (ofProcedure p).program := by
  obtain ⟨is, hheader⟩ := exists_spellsHeader h
  have hremark : Code.Wrote w (writeRemark emitComments (ofProcedure p).remark w) [] :=
    .remark h.remark emitComments w
  -- whether there is a remark makes no difference from here on
  generalize hstart : writeRemark emitComments (ofProcedure p).remark w = start at hremark
  obtain ⟨inner, hinner, hwrote⟩ :=
    wroteAll (allNamed_ofProcedure h) (start.openBlock (ofProcedure p).header)
  have hwrite : (ofProcedure p).write emitComments w =
      .ok () { inner with depth := start.depth + 1 }.closeBlock := by
    rw [← hstart] at hinner ⊢
    exact block_eq_ok hinner
  have hother : ({ inner with depth := start.depth + 1 } : Writer).text = inner.text := rfl
  exact ⟨_, hwrite, .block hremark hheader hwrote hother⟩

theorem exists_text (h : p.WellFormed) (emitComments : Bool) (w : Writer) :
    ∃ w' text, (ofProcedure p).write emitComments w = .ok () w' ∧ w'.text = w.text ++ text ∧
      Code.Function.ofText? text = some (ofProcedure p).program := by
  obtain ⟨w', hwrite, hwrote⟩ := exists_wroteFunction h emitComments w
  obtain ⟨text, htext, hread⟩ := hwrote.exists_text
  exact ⟨w', text, hwrite, htext, hread⟩

end Function
end Func
end MessageRouter
