import MessageRouter.Body.Scope
import MessageRouter.Proofs.Fallible
/-!
# `Proofs.Body.Scoping` — what the check of a body says

* `Scope.Resolves`: what a place stands for, one case for each kind of binding.
* `Scope.Widens`: a scope that has more locals in its innermost block.
* `widens_of_checkBody`: a check of a body leaves nothing but declarations behind, so that a block closes on
  the scope in which it was opened.
* `checkStmt_declare`, `checkStmt_set`, `checkStmt_branch`: what a checked statement consists of.
* `declare_or_eq_of_checkStmt`: what a checked statement does to the scope.
-/
namespace MessageRouter
namespace Scope

variable {s t u : Scope}

/-! ## Places -/

/-- What a place stands for. -/
inductive Resolves (s : Scope) : Place → Binding → Prop where
  | stateField {name f} (hf : field? s.state name = some f) :
      Resolves s ⟨Place.self, some name⟩ (.stateField f)
  | payloadField {binding message fields isPartial dropped name f} (hself : binding ≠ Place.self)
      (hp : s.payload = .struct binding message fields isPartial dropped)
      (hf : field? fields name = some f) :
      Resolves s ⟨binding, some name⟩ (.payloadField binding f)
  | payloadSlice {binding} (hself : binding ≠ Place.self) (hp : s.payload = .slice binding) :
      Resolves s ⟨binding, none⟩ (.payloadSlice binding)
  | localVar {name} (hself : name ≠ Place.self) (hp : s.payload.binding? ≠ some name)
      (hl : s.isLocal name = true) : Resolves s ⟨name, none⟩ .localVar

theorem resolves_of_resolveLocal {p : Place} {b : Binding} (hself : p.root ≠ Place.self)
    (hp : s.payload.binding? ≠ some p.root) (h : s.resolveLocal p = .ok b) : s.Resolves p b := by
  obtain ⟨root, field⟩ := p
  unfold resolveLocal at h
  split at h
  · next hl =>
    cases field with
    | none => exact Except.ok.inj h ▸ .localVar hself hp hl
    | some name => exact nomatch h
  · exact nomatch h

theorem resolves_of_resolveState {field : Option String} {b : Binding} (h : s.resolveState field = .ok b) :
    s.Resolves ⟨Place.self, field⟩ b := by
  cases field with
  | none => exact nomatch h
  | some name =>
    simp only [resolveState] at h
    cases hf : field? s.state name with
    | none =>
      rw [hf] at h
      exact nomatch h
    | some f =>
      rw [hf] at h
      exact Except.ok.inj h ▸ .stateField hf

theorem resolves_of_resolveStruct {binding message : String} {fields : List Field} {isPartial : Bool}
    {dropped : List String} {field : Option String} {b : Binding} (hself : binding ≠ Place.self)
    (hp : s.payload = .struct binding message fields isPartial dropped)
    (h : resolveStruct binding message fields isPartial dropped field = .ok b) :
    s.Resolves ⟨binding, field⟩ b := by
  cases field with
  | none => exact nomatch h
  | some name =>
    simp only [resolveStruct] at h
    cases hf : field? fields name with
    | none =>
      simp only [hf] at h
      split at h <;> exact nomatch h
    | some f =>
      rw [hf] at h
      exact Except.ok.inj h ▸ .payloadField hself hp hf

theorem resolves_of_resolve {p : Place} {b : Binding} (h : s.resolve p = .ok b) : s.Resolves p b := by
  obtain ⟨root, field⟩ := p
  unfold resolve at h
  by_cases hself : root = Place.self
  · rw [if_pos hself] at h
    subst hself
    exact resolves_of_resolveState h
  -- any other root is that of the payload if the payload has that name, and a local if not
  rw [if_neg hself] at h
  cases hp : s.payload with
  | none =>
    rw [hp] at h
    exact resolves_of_resolveLocal hself (by simp [hp, Payload.binding?]) h
  | struct binding message fields isPartial dropped =>
    simp only [hp] at h
    by_cases hroot : binding = root
    · rw [if_pos hroot] at h
      subst hroot
      exact resolves_of_resolveStruct hself hp h
    · rw [if_neg hroot] at h
      exact resolves_of_resolveLocal hself (by simpa [hp, Payload.binding?] using hroot) h
  | slice binding =>
    simp only [hp] at h
    by_cases hroot : binding = root
    · rw [if_pos hroot] at h
      subst hroot
      cases field with
      | none => exact Except.ok.inj h ▸ .payloadSlice hself hp
      | some name => exact nomatch h
    · rw [if_neg hroot] at h
      exact resolves_of_resolveLocal hself (by simpa [hp, Payload.binding?] using hroot) h

/-- A place that stands for something resolves to it. -/
theorem resolve_of_resolves {p : Place} {b : Binding} (h : s.Resolves p b) : s.resolve p = .ok b := by
  cases h with
  | stateField hf => rw [resolve, if_pos rfl, resolveState, hf]
  | payloadField hself hp hf =>
    rw [resolve, if_neg hself, hp]
    simp only [if_true, resolveStruct, hf]
  | payloadSlice hself hp =>
    rw [resolve, if_neg hself, hp]
    exact if_pos rfl
  | @localVar name hself hp hl =>
    have hlocal : s.resolveLocal ⟨name, none⟩ = .ok .localVar := by rw [resolveLocal, if_pos hl]
    rw [resolve, if_neg hself]
    cases hpayload : s.payload with
    | none => exact hlocal
    | struct binding message fields isPartial dropped | slice binding =>
      have hbinding : binding ≠ name := fun he => hp (by rw [hpayload, he]; rfl)
      exact (if_neg hbinding).trans hlocal

/-- What is read stands for a field or a local. -/
theorem resolve_of_checkRead {p : Place} (h : s.checkRead p = .ok ()) :
    ∃ b, s.resolve p = .ok b ∧ ∀ binding, b ≠ .payloadSlice binding := by
  obtain ⟨b, hb, h⟩ := Fallible.bind_eq_ok_iff.mp h
  refine ⟨b, hb, ?_⟩
  rintro binding rfl
  exact nomatch h

/-- What is measured stands for a slice. -/
theorem resolve_of_checkMeasure {p : Place} (h : s.checkMeasure p = .ok ()) :
    ∃ binding, s.resolve p = .ok (.payloadSlice binding) := by
  obtain ⟨b, hb, h⟩ := Fallible.bind_eq_ok_iff.mp h
  cases b with
  | payloadSlice binding => exact ⟨binding, hb⟩
  | stateField | payloadField | localVar => exact nomatch h

/-- What is assigned stands for a field of the state or a local. -/
theorem resolve_of_resolveTarget {p : Place} {b : Binding} (h : s.resolveTarget p = .ok b) :
    s.resolve p = .ok b ∧ ((∃ f, b = .stateField f) ∨ b = .localVar) := by
  obtain ⟨b', hb, h⟩ := Fallible.bind_eq_ok_iff.mp h
  cases b' with
  | payloadField | payloadSlice => exact nomatch h
  | stateField f =>
    obtain rfl := Except.ok.inj h
    exact ⟨hb, .inl ⟨f, rfl⟩⟩
  | localVar =>
    obtain rfl := Except.ok.inj h
    exact ⟨hb, .inr rfl⟩

/-! ## Blocks -/

/-- A scope with more locals in its innermost block. -/
structure Widens (s t : Scope) : Prop where
  state : t.state = s.state
  payload : t.payload = s.payload
  outer : t.outer = s.outer

theorem Widens.refl (s : Scope) : s.Widens s := ⟨rfl, rfl, rfl⟩

theorem Widens.trans (h : s.Widens t) (h' : t.Widens u) : s.Widens u :=
  ⟨h'.state.trans h.state, h'.payload.trans h.payload, h'.outer.trans h.outer⟩

theorem Widens.of_declare {name : String} (h : s.declare name = .ok t) : s.Widens t := by
  obtain ⟨-, -, rfl⟩ := declare_eq_ok_iff.mp h
  exact ⟨rfl, rfl, rfl⟩

/-- A block closes on the scope in which it was opened. -/
theorem Widens.pop_eq (h : s.push.Widens t) : t.pop = s := by
  obtain ⟨state, payload, inner, outer⟩ := t
  obtain ⟨rfl, rfl, rfl⟩ := h
  rfl

end Scope

/-! ## Statements -/

namespace Checking

variable {s t : Scope} {α : Type}

theorem inScope_eq_ok {check : Scope → Except ScopeError α} {a : α} (h : inScope check s = .ok a t) :
    check s = .ok a ∧ t = s := by
  unfold inScope at h
  split at h
  · next ha =>
    injection h with h₁ h₂
    exact ⟨h₁ ▸ ha, h₂.symm⟩
  · exact nomatch h

theorem inScope_of_ok {check : Scope → Except ScopeError α} {a : α} (h : check s = .ok a) :
    inScope check s = .ok a s := by
  rw [inScope, h]

theorem declare_eq_ok {name : String} (h : declare name s = .ok () t) : s.declare name = .ok t := by
  unfold declare at h
  split at h
  · next ht =>
    injection h with _ h₂
    exact h₂ ▸ ht
  · exact nomatch h

theorem inBlock_eq_ok {check : Checking Unit} (h : inBlock check s = .ok () t) :
    ∃ u, check s.push = .ok () u ∧ t = u.pop := by
  unfold inBlock at h
  split at h
  · next u hu =>
    injection h with _ h₂
    exact ⟨u, hu, h₂.symm⟩
  · exact nomatch h

end Checking

section Statements

variable {s t : Scope}

theorem checkStmt_declare {name : String} {value : Operand}
    (h : checkStmt (.declare name value) s = .ok () t) :
    s.checkOperand value = .ok () ∧ s.declare name = .ok t := by
  obtain ⟨_, _, hvalue, hdeclare⟩ := Fallible.stateful_bind_eq_ok_iff.mp h
  obtain ⟨hvalue, rfl⟩ := Checking.inScope_eq_ok hvalue
  exact ⟨hvalue, Checking.declare_eq_ok hdeclare⟩

theorem checkStmt_set {target : Place} {value : Operand}
    (h : checkStmt (.set target value) s = .ok () t) :
    (∃ b, s.resolveTarget target = .ok b) ∧ s.checkOperand value = .ok () ∧ t = s := by
  obtain ⟨b, _, htarget, hvalue⟩ := Fallible.stateful_bind_eq_ok_iff.mp h
  obtain ⟨htarget, rfl⟩ := Checking.inScope_eq_ok htarget
  obtain ⟨hvalue, rfl⟩ := Checking.inScope_eq_ok hvalue
  exact ⟨⟨b, htarget⟩, hvalue, rfl⟩

theorem checkBody_cons {st : Stmt} {rest : List Stmt} (h : checkBody (st :: rest) s = .ok () t) :
    ∃ u, checkStmt st s = .ok () u ∧ checkBody rest u = .ok () t := by
  obtain ⟨_, u, hst, h⟩ := Fallible.stateful_bind_eq_ok_iff.mp h
  exact ⟨u, hst, h⟩

mutual

/-- A check of a statement leaves at most a declaration behind. -/
theorem widens_of_checkStmt {s t : Scope} (st : Stmt) (h : checkStmt st s = .ok () t) : s.Widens t := by
  cases st with
  | declare name value => exact .of_declare (checkStmt_declare h).2
  | set target value =>
    obtain ⟨-, -, rfl⟩ := checkStmt_set h
    exact .refl _
  | branch cond thenBody elseBody =>
    obtain ⟨_, _, hcond, hblocks⟩ := Fallible.stateful_bind_eq_ok_iff.mp h
    obtain ⟨-, rfl⟩ := Checking.inScope_eq_ok hcond
    obtain ⟨_, _, hthen, helse⟩ := Fallible.stateful_bind_eq_ok_iff.mp hblocks
    obtain ⟨u, hu, rfl⟩ := Checking.inBlock_eq_ok hthen
    obtain ⟨v, hv, rfl⟩ := Checking.inBlock_eq_ok helse
    rw [(widens_of_checkBody thenBody hu).pop_eq] at hv
    rw [(widens_of_checkBody elseBody hv).pop_eq]
    exact .refl _
  | throw code | ret =>
    injection h with _ ht
    exact ht ▸ .refl _

/-- A check of a body leaves nothing but declarations behind. -/
theorem widens_of_checkBody {s t : Scope} (body : List Stmt) (h : checkBody body s = .ok () t) :
    s.Widens t := by
  cases body with
  | nil =>
    injection h with _ ht
    exact ht ▸ .refl _
  | cons st rest =>
    obtain ⟨u, hst, hrest⟩ := checkBody_cons h
    exact (widens_of_checkStmt st hst).trans (widens_of_checkBody rest hrest)

end

/-- Both bodies of a branch are checked in a block of the same scope. -/
theorem checkStmt_branch {cond : Operand} {thenBody elseBody : List Stmt}
    (h : checkStmt (.branch cond thenBody elseBody) s = .ok () t) :
    s.checkOperand cond = .ok () ∧ (∃ u, checkBody thenBody s.push = .ok () u) ∧
      (∃ u, checkBody elseBody s.push = .ok () u) ∧ t = s := by
  obtain ⟨_, _, hcond, hblocks⟩ := Fallible.stateful_bind_eq_ok_iff.mp h
  obtain ⟨hcond, rfl⟩ := Checking.inScope_eq_ok hcond
  obtain ⟨_, _, hthen, helse⟩ := Fallible.stateful_bind_eq_ok_iff.mp hblocks
  obtain ⟨u, hu, rfl⟩ := Checking.inBlock_eq_ok hthen
  obtain ⟨v, hv, rfl⟩ := Checking.inBlock_eq_ok helse
  rw [(widens_of_checkBody thenBody hu).pop_eq] at hv
  exact ⟨hcond, ⟨u, hu⟩, ⟨v, hv⟩, (widens_of_checkBody elseBody hv).pop_eq⟩

/-- A checked statement declares a local, or leaves the scope as it was. -/
theorem declare_or_eq_of_checkStmt {st : Stmt} (h : checkStmt st s = .ok () t) :
    (∃ name value, st = .declare name value ∧ s.declare name = .ok t) ∨ t = s := by
  cases st with
  | declare name value => exact .inl ⟨name, value, rfl, (checkStmt_declare h).2⟩
  | set target value => exact .inr (checkStmt_set h).2.2
  | branch cond thenBody elseBody => exact .inr (checkStmt_branch h).2.2.2
  | throw code | ret =>
    injection h with _ ht
    exact .inr ht.symm

end Statements

end MessageRouter
