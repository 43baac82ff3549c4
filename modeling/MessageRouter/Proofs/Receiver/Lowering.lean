import MessageRouter.Proofs.Body.Conformance
import MessageRouter.Proofs.Body.Scoping
import MessageRouter.Proofs.Code.Body
import MessageRouter.Proofs.Code.Name
/-!
# `Proofs.Receiver.Lowering` — what a checked body is lowered to

* `Scope.IsNamed`: the names of a scope are allowed, and no local has the name of the payload.
* `Scope.HasValidNames`: the names of a scope are allowed, whichever of them are the same.
* `Func.isNamed_ofOperand`: in such a scope every expression has variables only.
* `Func.lowerStmt_declare`, `lowerStmt_set`, `lowerStmt_branch`: the statement that a checked one becomes.
* `Func.lowerBody_cons`: a body is lowered in the scopes in which it was checked.
* `Func.allNamed_lowerBody`: nothing in a lowered body is stuck.
-/
namespace MessageRouter

open Identifier (IsValid)

/-! ## Named scopes -/

/-- The name of a payload is allowed and is not that of the state, and so are the names of its fields. -/
def Payload.IsNamed : Payload → Prop
  | .none => True
  | .struct binding _ fields _ _ =>
    (IsValid .localName binding ∧ binding ≠ Place.self) ∧ FieldsWellFormed fields
  | .slice binding => IsValid .localName binding ∧ binding ≠ Place.self

theorem Payload.IsNamed.binding {p : Payload} (h : p.IsNamed) {binding : String}
    (hb : p.binding? = some binding) : IsValid .localName binding ∧ binding ≠ Place.self := by
  cases p with
  | none => exact nomatch hb
  | struct name message fields isPartial dropped =>
    obtain rfl := Option.some.inj hb
    exact h.1
  | slice name =>
    obtain rfl := Option.some.inj hb
    exact h

theorem Place.isValid_self : IsValid .localName self := Identifier.check_eq_ok_iff.mp rfl

namespace Scope

/-- The names of a scope are allowed, and no local has the name of the payload. -/
structure IsNamed (s : Scope) : Prop where
  state : FieldsWellFormed s.state
  payload : s.payload.IsNamed
  locals : ∀ name, s.isLocal name = true →
    IsValid .localName name ∧ s.payload.binding? ≠ some name

variable {s t : Scope}

theorem isNamed_ofReceiver {fields : List Field} {payload : Payload} (hfields : FieldsWellFormed fields)
    (hpayload : payload.IsNamed) : (ofReceiver fields payload).IsNamed :=
  ⟨hfields, hpayload, nofun⟩

theorem IsNamed.push (h : s.IsNamed) : s.push.IsNamed := by
  refine ⟨h.state, h.payload, fun name hname => h.locals name ?_⟩
  show (s.inner.contains name || s.outer.any (·.contains name)) = true
  have hpushed : (([] : List String).contains name || (s.inner :: s.outer).any (·.contains name)) = true :=
    hname
  simpa using hpushed

theorem IsNamed.declare (h : s.IsNamed) {name : String} (hname : IsValid .localName name)
    (ht : s.declare name = .ok t) : t.IsNamed := by
  obtain ⟨-, hbinding, rfl⟩ := declare_eq_ok_iff.mp ht
  refine ⟨h.state, h.payload, fun other hother => ?_⟩
  have hcases : other = name ∨ s.isLocal other = true := by
    simpa [isLocal, or_assoc] using hother
  rcases hcases with rfl | hlocal
  · exact ⟨hname, hbinding⟩
  · exact h.locals other hlocal

theorem IsNamed.of_checkStmt (h : s.IsNamed) {st : Stmt} (hst : st.IsNamed)
    (hcheck : checkStmt st s = .ok () t) : t.IsNamed := by
  rcases declare_or_eq_of_checkStmt hcheck with ⟨name, value, rfl, ht⟩ | rfl
  · exact h.declare hst ht
  · exact h

/-- The names of a scope are allowed. -/
structure HasValidNames (s : Scope) : Prop where
  state : ∀ f ∈ s.state, IsValid .localName f.name
  binding : ∀ binding, s.payload.binding? = some binding → IsValid .localName binding
  fields : ∀ binding message fields isPartial dropped,
    s.payload = .struct binding message fields isPartial dropped → ∀ f ∈ fields, IsValid .localName f.name
  locals : ∀ name, s.isLocal name = true → IsValid .localName name

theorem IsNamed.hasValidNames (h : s.IsNamed) : s.HasValidNames where
  state := h.state.valid
  binding _ hb := (h.payload.binding hb).1
  fields _ _ _ _ _ hp := by
    have hpayload := h.payload
    rw [hp] at hpayload
    exact hpayload.2.valid
  locals name hl := (h.locals name hl).1

/-- What is found stands under an allowed name. -/
theorem Resolves.isValid_root (h : s.HasValidNames) {p : Place} {b : Binding} (hb : s.Resolves p b) :
    IsValid .localName p.root := by
  cases hb with
  | stateField => exact Place.isValid_self
  | payloadField hself hp => exact h.binding _ (by rw [hp]; rfl)
  | payloadSlice hself hp => exact h.binding _ (by rw [hp]; rfl)
  | localVar hself hp hl => exact h.locals _ hl

end Scope

namespace Func

variable {s t : Scope}

/-! ## Operands -/

/-- What a place stands for has a variable of its own. -/
theorem isName_variableOf (h : s.HasValidNames) {p : Place} {b : Binding} (hb : s.Resolves p b) :
    Code.IsName (Expr.variableOf p b) := by
  have hroot := hb.isValid_root h
  cases hb with
  | @stateField name f hf => exact Name.isName_field hroot (h.state f (Scope.mem_of_field? hf).1)
  | @payloadField binding message fields isPartial dropped name f hself hp hf =>
    exact Name.isName_field hroot (h.fields _ _ _ _ _ hp f (Scope.mem_of_field? hf).1)
  | payloadSlice => exact Name.isName_var hroot
  | localVar => exact Name.isName_var hroot

/-- The expression of an operand has variables only. -/
theorem isNamed_ofOperand (h : s.HasValidNames) {x : Operand} {e : Expr} (he : Expr.ofOperand s x = .ok e) :
    e.IsNamed := by
  induction x generalizing e with
  | int i | bool b => exact Except.ok.inj he ▸ trivial
  | place p =>
    obtain ⟨b, hb, rfl⟩ := Fallible.map_eq_ok_iff.mp he
    exact isName_variableOf h (Scope.resolves_of_resolve hb)
  | bits p =>
    obtain ⟨b, hb, rfl⟩ := Fallible.map_eq_ok_iff.mp he
    exact Name.isName_var ((Scope.resolves_of_resolve hb).isValid_root h)
  | unary op x ih =>
    cases op with
    | neg | not =>
      obtain ⟨e', he', rfl⟩ := Fallible.map_eq_ok_iff.mp he
      show e'.IsNamed
      exact ih he'
  | binary op a b iha ihb =>
    obtain ⟨ea, hea, he⟩ := Fallible.bind_eq_ok_iff.mp he
    obtain ⟨eb, heb, he⟩ := Fallible.bind_eq_ok_iff.mp he
    obtain rfl := Except.ok.inj he
    exact ⟨iha hea, ihb heb⟩

/-! ## Statements -/

/-- A checked statement leads to the scope in which the statements after it are lowered. -/
theorem scopeAfter_eq {st : MessageRouter.Stmt} (h : checkStmt st s = .ok () t) :
    scopeAfter s st = t := by
  cases st with
  | declare name value =>
    rw [scopeAfter, (checkStmt_declare h).2]
    rfl
  | set target value => exact (checkStmt_set h).2.2.symm
  | branch cond thenBody elseBody => exact (checkStmt_branch h).2.2.2.symm
  | throw code | ret =>
    injection h with _ ht

theorem lowerBody_cons {st : MessageRouter.Stmt} (h : checkStmt st s = .ok () t)
    (rest : List MessageRouter.Stmt) : lowerBody s (st :: rest) = lowerStmt s st :: lowerBody t rest := by
  rw [lowerBody, scopeAfter_eq h]

theorem lowerStmt_declare {name : String} {value : Operand}
    (h : checkStmt (.declare name value) s = .ok () t) :
    ∃ e, Expr.ofOperand s value = .ok e ∧
      lowerStmt s (.declare name value) = .declare (Name.var name) e := by
  obtain ⟨hvalue, ht⟩ := checkStmt_declare h
  obtain ⟨e, he⟩ := Expr.exists_ofOperand hvalue
  refine ⟨e, he, ?_⟩
  rw [lowerStmt, lowerDeclare, he, ht]
  rfl

theorem lowerStmt_set {target : Place} {value : Operand}
    (h : checkStmt (.set target value) s = .ok () t) :
    ∃ b e, s.resolveTarget target = .ok b ∧ Expr.ofOperand s value = .ok e ∧
      lowerStmt s (.set target value) = .assign (Expr.variableOf target b) e := by
  obtain ⟨⟨b, hb⟩, hvalue, -⟩ := checkStmt_set h
  obtain ⟨e, he⟩ := Expr.exists_ofOperand hvalue
  refine ⟨b, e, hb, he, ?_⟩
  rw [lowerStmt, lowerSet, hb, he]
  rfl

theorem lowerStmt_branch {cond : Operand} {thenBody elseBody : List MessageRouter.Stmt}
    (h : checkStmt (.branch cond thenBody elseBody) s = .ok () t) :
    ∃ e, Expr.ofOperand s cond = .ok e ∧
      lowerStmt s (.branch cond thenBody elseBody) =
        .branch e (lowerBody s.push thenBody) (lowerBody s.push elseBody) := by
  obtain ⟨hcond, -, -, -⟩ := checkStmt_branch h
  obtain ⟨e, he⟩ := Expr.exists_ofOperand hcond
  refine ⟨e, he, ?_⟩
  rw [lowerStmt, he]
  rfl

theorem isName_fieldVariables {binding : String} (hbinding : IsValid .localName binding)
    {fields : List Field} (h : FieldsWellFormed fields) :
    ∀ name ∈ fieldVariables binding fields, Code.IsName name := by
  intro name hname
  obtain ⟨f, hf, rfl⟩ := List.mem_map.mp hname
  exact Name.isName_field hbinding (h.valid f hf)

mutual

theorem isNamed_lowerStmt {s t : Scope} (st : MessageRouter.Stmt) (hs : s.IsNamed) (hst : st.IsNamed)
    (h : checkStmt st s = .ok () t) : (lowerStmt s st).IsNamed := by
  cases st with
  | declare name value =>
    obtain ⟨e, he, heq⟩ := lowerStmt_declare h
    rw [heq]
    exact ⟨Name.isName_var hst, isNamed_ofOperand hs.hasValidNames he⟩
  | set target value =>
    obtain ⟨b, e, hb, he, heq⟩ := lowerStmt_set h
    have hresolve := (Scope.resolve_of_resolveTarget hb).1
    rw [heq]
    exact ⟨isName_variableOf hs.hasValidNames (Scope.resolves_of_resolve hresolve),
      isNamed_ofOperand hs.hasValidNames he⟩
  | branch cond thenBody elseBody =>
    obtain ⟨e, he, heq⟩ := lowerStmt_branch h
    obtain ⟨-, ⟨u, hu⟩, ⟨v, hv⟩, -⟩ := checkStmt_branch h
    rw [heq]
    exact ⟨isNamed_ofOperand hs.hasValidNames he, allNamed_lowerBody thenBody hs.push hst.1 hu,
      allNamed_lowerBody elseBody hs.push hst.2 hv⟩
  | throw code =>
    rw [lowerStmt]
    trivial
  | ret =>
    rw [lowerStmt]
    exact isName_fieldVariables Place.isValid_self hs.state

/-- Nothing in a lowered body is stuck, and its variables start with a dollar sign. -/
theorem allNamed_lowerBody {s t : Scope} (body : List MessageRouter.Stmt) (hs : s.IsNamed)
    (hbody : BodyIsNamed body) (h : checkBody body s = .ok () t) : AllNamed (lowerBody s body) := by
  cases body with
  | nil => trivial
  | cons st rest =>
    obtain ⟨u, hst, hrest⟩ := checkBody_cons h
    rw [lowerBody_cons hst]
    exact ⟨isNamed_lowerStmt st hs hbody.1 hst,
      allNamed_lowerBody rest (hs.of_checkStmt hbody.1 hst) hbody.2 hrest⟩

end

end Func
end MessageRouter
