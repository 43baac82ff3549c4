import MessageRouter.Proofs.Body.Conformance
import MessageRouter.Proofs.Body.Scoping
/-!
# `Proofs.Body.Soundness` — a checked body finds what it names

* `throwCodes`: the codes that a body throws.
* `Exit.IsMismatch`: an operator or a store met the wrong one of integer and truth value.
* `Exit.IsRunning`: what a checked body may end with.
* `Call.eval_ends`, `Call.store_ends`, `Call.exec_ends`: operands, stores and bodies.

A frame that fits a scope fits the scope after each statement that was checked, so no name is ever unknown and
no local ever a slice.
-/
namespace MessageRouter

open Fallible (Ends)

/-! ## Exits of a body -/

mutual

/-- The codes that a statement throws. -/
def Stmt.throwCodes : Stmt → List UInt16
  | .throw code => [code]
  | .branch _ thenBody elseBody => bodyThrowCodes thenBody ++ bodyThrowCodes elseBody
  | .declare .. | .set .. | .ret => []

/-- The codes that a body throws. -/
def bodyThrowCodes : List Stmt → List UInt16
  | [] => []
  | s :: rest => s.throwCodes ++ bodyThrowCodes rest

end

namespace Simulator

/-- An operator, or a store into a field of the state, met the wrong one of integer and truth value. -/
inductive Exit.IsMismatch (fields : List Field) : Exit → Prop where
  | negated : IsMismatch fields (.negatedKind .bool)
  | intAndBool (op : BinaryOp) : IsMismatch fields (.operatorKinds op .int .bool)
  | boolAndInt (op : BinaryOp) : IsMismatch fields (.operatorKinds op .bool .int)
  | bools {op : BinaryOp} (h : ∀ a b, applyBool? op a b = none) :
      IsMismatch fields (.operatorKinds op .bool .bool)
  | storedInt {f : Field} (hf : f ∈ fields) (ht : f.type = .bool) : IsMismatch fields (.storedKind f .int)
  | storedBool {f : Field} (hf : f ∈ fields) (ht : f.type ≠ .bool) :
      IsMismatch fields (.storedKind f .bool)

/-- What a checked body that throws some codes may end with. -/
inductive Exit.IsRunning (fields : List Field) (codes : List UInt16) : Exit → Prop where
  | thrown {code : UInt16} (h : code ∈ codes) : IsRunning fields codes (.thrown code)
  | overflow : IsRunning fields codes .overflow
  | mismatch {e : Exit} (h : e.IsMismatch fields) : IsRunning fields codes e

theorem Exit.IsMismatch.code_eq {fields : List Field} {e : Exit} (h : e.IsMismatch fields) :
    e.code = Exit.typeCheck := by
  cases h <;> rfl

theorem Exit.IsRunning.mono {fields : List Field} {codes codes' : List UInt16} {e : Exit}
    (h : e.IsRunning fields codes) (hsub : codes ⊆ codes') : e.IsRunning fields codes' := by
  cases h with
  | thrown hcode => exact .thrown (hsub hcode)
  | overflow => exact .overflow
  | mismatch hm => exact .mismatch hm

/-! ## Operators -/

section Operators

variable {fields : List Field} {codes : List UInt16}

/-- Arithmetic gives an integer or leaves the range. -/
theorem inRange_ends (i : Option Int128) :
    Ends (·.kind ≠ .slice) (Exit.IsRunning fields codes) (inRange i) := by
  cases i with
  | none => exact .overflow
  | some i => exact nofun

theorem applyUnary_ends (op : UnaryOp) {v : Value} (hv : v.kind ≠ .slice) :
    Ends (·.kind ≠ .slice) (Exit.IsRunning fields codes) (applyUnary op v) := by
  cases v with
  | slice s => exact absurd rfl hv
  | int i =>
    cases op with
    | neg => exact inRange_ends _
    | not => exact nofun
  | bool b =>
    cases op with
    | neg => exact .mismatch .negated
    | not => exact nofun

theorem applyInt_ends (op : BinaryOp) (a b : Int128) :
    Ends (·.kind ≠ .slice) (Exit.IsRunning fields codes) (applyInt op a b) := by
  cases op with
  | add | sub | mul => exact inRange_ends _
  | eq | ne | lt | le | gt | ge | and | or => exact nofun

/-- Whether an operator has a meaning for truth values does not depend on which they are. -/
theorem applyBool?_eq_none {op : BinaryOp} {a b : Bool} (h : applyBool? op a b = none) (a' b' : Bool) :
    applyBool? op a' b' = none := by
  cases op with
  | eq | ne | and | or => exact nomatch h
  | add | sub | mul | lt | le | gt | ge => rfl

theorem applyBinary_ends (op : BinaryOp) {a b : Value} (ha : a.kind ≠ .slice) (hb : b.kind ≠ .slice) :
    Ends (·.kind ≠ .slice) (Exit.IsRunning fields codes) (applyBinary op a b) := by
  cases a with
  | slice s => exact absurd rfl ha
  | int i =>
    cases b with
    | slice s => exact absurd rfl hb
    | int j => exact applyInt_ends op i j
    | bool j => exact .mismatch (.intAndBool op)
  | bool i =>
    cases b with
    | slice s => exact absurd rfl hb
    | int j => exact .mismatch (.boolAndInt op)
    | bool j =>
      unfold applyBinary
      cases h : applyBool? op i j with
      | some c => simp only [h]; exact nofun
      | none => simp only [h]; exact .mismatch (.bools (applyBool?_eq_none h))

/-- Whatever is no slice is a condition. -/
theorem exists_truth {v : Value} (hv : v.kind ≠ .slice) : ∃ b, truth v = .ok b := by
  cases v with
  | slice s => exact absurd rfl hv
  | int i => exact ⟨_, rfl⟩
  | bool b => exact ⟨b, rfl⟩

end Operators

namespace Call

/-- A receiver runs in the scope in which its body was checked, with a payload of its kind. -/
structure RunsIn (s : Scope) (c : Call) : Prop where
  stateFields : c.procedure.stateFields = s.state
  payload : c.procedure.payload = s.payload
  received : Received.Fits s.payload c.received

variable {s t : Scope} {c : Call} {f : Frame}

theorem RunsIn.push (h : c.RunsIn s) : c.RunsIn s.push := ⟨h.stateFields, h.payload, h.received⟩

theorem RunsIn.widens (h : c.RunsIn s) (hw : s.Widens t) : c.RunsIn t where
  stateFields := by rw [hw.state, h.stateFields]
  payload := by rw [hw.payload, h.payload]
  received := by rw [hw.payload]; exact h.received

/-! ## Operands -/

theorem read_stateField {name : String} {v : Value} (hv : f.state.get? name = some v) :
    c.read f ⟨Place.self, some name⟩ = .ok v := by
  simp [read, readState, hv]

section Payloads

variable {binding message name : String} {fields : List Field} {isPartial : Bool}
  {dropped : List String}

theorem read_payloadField (hc : c.RunsIn s) (hself : binding ≠ Place.self)
    (hp : s.payload = .struct binding message fields isPartial dropped) {record : Record}
    (hr : c.received = .struct record) {v : Value} (hv : record.get? name = some v) :
    c.read f ⟨binding, some name⟩ = .ok v := by
  simp [read, hself, hc.payload, hp, Payload.binding?, readPayload, hr, hv]

theorem read_payloadSlice (hc : c.RunsIn s) (hself : binding ≠ Place.self)
    (hp : s.payload = .slice binding) {rest : Slice} (hr : c.received = .slice rest) :
    c.read f ⟨binding, none⟩ = .ok (.slice rest) := by
  simp [read, hself, hc.payload, hp, Payload.binding?, readPayload, hr]

theorem read_localVar (hc : c.RunsIn s) (hself : name ≠ Place.self)
    (hp : s.payload.binding? ≠ some name) {v : Value} (hv : f.local? name = some v) :
    c.read f ⟨name, none⟩ = .ok v := by
  simp [read, hself, hc.payload, hp, readLocal, hv]

/-- A receiver with a struct for its payload gets one. -/
theorem RunsIn.exists_struct (hc : c.RunsIn s)
    (hp : s.payload = .struct binding message fields isPartial dropped) :
    ∃ record, c.received = .struct record ∧ record.Holds fields := by
  have hreceived := hc.received
  rw [hp] at hreceived
  cases hr : c.received with
  | nothing | slice rest =>
    rw [hr] at hreceived
    exact hreceived.elim
  | struct record =>
    rw [hr] at hreceived
    exact ⟨record, rfl, hreceived⟩

/-- A receiver with a slice for its payload gets one. -/
theorem RunsIn.exists_slice (hc : c.RunsIn s) (hp : s.payload = .slice binding) :
    ∃ rest, c.received = .slice rest := by
  have hreceived := hc.received
  rw [hp] at hreceived
  cases hr : c.received with
  | nothing | struct record =>
    rw [hr] at hreceived
    exact hreceived.elim
  | slice rest => exact ⟨rest, rfl⟩

end Payloads

/-- What stands for a field or a local is read, and is no slice. -/
theorem read_of_resolves (hc : c.RunsIn s) (hf : f.Fits s) {p : Place} {b : Binding}
    (hb : s.Resolves p b) (hslice : ∀ binding, b ≠ .payloadSlice binding) :
    ∃ v, c.read f p = .ok v ∧ v.kind ≠ .slice := by
  cases hb with
  | @stateField name field hfield =>
    obtain ⟨v, hv, hkind⟩ := hf.state name field hfield
    exact ⟨v, read_stateField hv, hkind ▸ Value.Kind.ofType_ne_slice field.type⟩
  | @payloadField binding message fields isPartial dropped name field hself hp hfield =>
    obtain ⟨record, hr, hholds⟩ := hc.exists_struct hp
    obtain ⟨v, hv, hkind⟩ := hholds name field hfield
    exact ⟨v, read_payloadField hc hself hp hr hv, hkind ▸ Value.Kind.ofType_ne_slice field.type⟩
  | payloadSlice => exact absurd rfl (hslice _)
  | @localVar name hself hp hl =>
    obtain ⟨v, hv, hkind⟩ := hf.exists_local? hl
    exact ⟨v, read_localVar hc hself hp hv, hkind⟩

/-- What stands for a slice is one. -/
theorem read_of_resolves_slice (hc : c.RunsIn s) {p : Place} {binding : String}
    (hb : s.Resolves p (.payloadSlice binding)) :
    ∃ rest, c.received = .slice rest ∧ c.read f p = .ok (.slice rest) := by
  cases hb with
  | payloadSlice hself hp =>
    obtain ⟨rest, hr⟩ := hc.exists_slice hp
    exact ⟨rest, hr, read_payloadSlice hc hself hp hr⟩

/-- A checked operand has a value that is no slice, or its arithmetic goes wrong. -/
theorem eval_ends (hc : c.RunsIn s) (hf : f.Fits s) {codes : List UInt16} {x : Operand}
    (hx : s.checkOperand x = .ok ()) :
    Ends (·.kind ≠ .slice) (Exit.IsRunning s.state codes) (c.eval f x) := by
  induction x with
  | int i | bool b => exact nofun
  | place p =>
    obtain ⟨b, hb, hslice⟩ := Scope.resolve_of_checkRead hx
    obtain ⟨v, hv, hkind⟩ := read_of_resolves hc hf (Scope.resolves_of_resolve hb) hslice
    rw [eval, hv]
    exact hkind
  | bits p =>
    obtain ⟨binding, hb⟩ := Scope.resolve_of_checkMeasure hx
    obtain ⟨rest, -, hrest⟩ := read_of_resolves_slice (f := f) hc (Scope.resolves_of_resolve hb)
    rw [eval, measure, hrest]
    exact nofun
  | unary op x ih =>
    rw [Scope.checkOperand] at hx
    exact (ih hx).bind fun v hv => applyUnary_ends op hv
  | binary op a b iha ihb =>
    rw [Scope.checkOperand] at hx
    obtain ⟨_, ha, hb⟩ := Fallible.bind_eq_ok_iff.mp hx
    exact (iha ha).bind fun v hv => (ihb hb).bind fun w hw => applyBinary_ends op hv hw

/-! ## Stores -/

/-- A checked target takes a value, unless a field of the state is of the other kind. -/
theorem store_ends (hc : c.RunsIn s) (hf : f.Fits s) {codes : List UInt16} {p : Place} {b : Binding}
    (hb : s.resolveTarget p = .ok b) {v : Value} (hv : v.kind ≠ .slice) :
    Ends (·.Fits s) (Exit.IsRunning s.state codes) (c.store f p v) := by
  obtain ⟨hb, htarget⟩ := Scope.resolve_of_resolveTarget hb
  cases Scope.resolves_of_resolve hb with
  | payloadField | payloadSlice =>
    rcases htarget with ⟨_, h⟩ | h <;> exact nomatch h
  | @localVar name hself hp hl =>
    obtain ⟨f', hset⟩ := hf.exists_setLocal? hl v
    simp only [store, if_neg hself, hset]
    exact hf.of_setLocal? hv hset
  | @stateField name field hfield =>
    simp only [store, if_true, storeState, hc.stateFields, Option.getD_some, hfield]
    have hmem := (Scope.mem_of_field? hfield).1
    -- the check of a body does not compare kinds here, so a store may end at a mismatch
    by_cases hkind : field.type = .bool ↔ v.kind = .bool
    · rw [if_pos hkind]
      refine hf.setField hfield ?_
      cases htype : field.type with
      | bool => exact hkind.mp htype
      | uint | int | coins =>
        rw [htype] at hkind
        have hbool : v.kind ≠ .bool := fun h => nomatch hkind.mpr h
        cases v with
        | int i => rfl
        | bool b => exact absurd rfl hbool
        | slice s => exact absurd rfl hv
    · rw [if_neg hkind]
      cases v with
      | slice s => exact absurd rfl hv
      | int i =>
        have htype : field.type = .bool := by
          by_contra htype
          exact hkind ⟨fun h => absurd h htype, nofun⟩
        exact .mismatch (.storedInt hmem htype)
      | bool b =>
        have htype : field.type ≠ .bool := fun h => hkind ⟨fun _ => rfl, fun _ => h⟩
        exact .mismatch (.storedBool hmem htype)

/-! ## Bodies -/

/-- Where a statement that was checked leaves a frame. After a return only the state counts. -/
def Lands (s t : Scope) (r : Flow × Frame) : Prop :=
  r.2.state.Holds s.state ∧ (r.1 = .next → r.2.Fits t)

/-- A branch lands where its block does. -/
theorem Lands.pop {r : Flow × Frame} (h : Lands s.push t r) (hw : s.push.Widens t) :
    Lands s s (r.1, r.2.pop) := by
  refine ⟨?_, fun hnext => ?_⟩
  · obtain ⟨flow, state, inner, outer⟩ := r
    cases outer <;> exact h.1
  · have hpop := (h.2 hnext).pop
    rwa [hw.pop_eq] at hpop

mutual

/-- A checked statement leaves a frame that fits the scope after it, or ends as it may. -/
theorem execStmt_ends {s t : Scope} {f : Frame} (st : Stmt) (hcheck : checkStmt st s = .ok () t)
    (hc : c.RunsIn s) (hf : f.Fits s) :
    Ends (Lands s t) (Exit.IsRunning s.state st.throwCodes) (c.execStmt st f) := by
  cases st with
  | declare name value =>
    obtain ⟨hvalue, hdeclare⟩ := checkStmt_declare hcheck
    refine (eval_ends hc hf hvalue).bind fun v hv => ?_
    have hfits := hf.declare hdeclare hv
    exact ⟨hf.state, fun _ => hfits⟩
  | set target value =>
    obtain ⟨⟨b, hb⟩, hvalue, rfl⟩ := checkStmt_set hcheck
    refine (eval_ends hc hf hvalue).bind fun v hv => ?_
    refine (store_ends hc hf hb hv).bind fun f' hf' => ?_
    exact ⟨hf'.state, fun _ => hf'⟩
  | branch cond thenBody elseBody =>
    obtain ⟨hcond, ⟨u, hu⟩, ⟨v, hv⟩, rfl⟩ := checkStmt_branch hcheck
    have hthen := exec_ends thenBody hu hc.push hf.push
    have helse := exec_ends elseBody hv hc.push hf.push
    refine (eval_ends hc hf hcond).bind fun w hw => ?_
    obtain ⟨b, hb⟩ := exists_truth hw
    rw [hb]
    -- either body ends inside a block of this scope, which the last step closes
    cases b with
    | true =>
      refine (hthen.imp (fun _ h => h) fun e he => he.mono (List.subset_append_left _ _)).bind ?_
      exact fun r hr => hr.pop (widens_of_checkBody thenBody hu)
    | false =>
      refine (helse.imp (fun _ h => h) fun e he => he.mono (List.subset_append_right _ _)).bind ?_
      exact fun r hr => hr.pop (widens_of_checkBody elseBody hv)
  | throw code => exact .thrown List.mem_cons_self
  | ret => exact ⟨hf.state, nofun⟩

/-- A checked body leaves a frame that fits the scope after it, or ends as it may. -/
theorem exec_ends {s t : Scope} {f : Frame} (body : List Stmt) (hcheck : checkBody body s = .ok () t)
    (hc : c.RunsIn s) (hf : f.Fits s) :
    Ends (Lands s t) (Exit.IsRunning s.state (bodyThrowCodes body)) (c.exec body f) := by
  cases body with
  | nil =>
    injection hcheck with _ ht
    exact ⟨hf.state, fun _ => ht ▸ hf⟩
  | cons st rest =>
    obtain ⟨u, hst, hrest⟩ := checkBody_cons hcheck
    have hw := widens_of_checkStmt st hst
    refine ((execStmt_ends st hst hc hf).imp (fun _ h => h)
      fun e he => he.mono (List.subset_append_left _ _)).bind ?_
    rintro ⟨flow, f'⟩ hlands
    cases flow with
    | returned => exact ⟨hlands.1, nofun⟩
    | next =>
      have hnext := exec_ends rest hrest (hc.widens hw) (hlands.2 rfl)
      rw [hw.state] at hnext
      refine hnext.imp (fun r hr => ?_) fun e he => he.mono (List.subset_append_right _ _)
      exact ⟨hw.state ▸ hr.1, hr.2⟩

end

end Call
end Simulator
end MessageRouter
