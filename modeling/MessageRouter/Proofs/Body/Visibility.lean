import MessageRouter.Proofs.Body.Conformance
import MessageRouter.Proofs.Body.Scoping
/-!
# `Proofs.Body.Visibility` — which bodies are checked successfully

* `UsedIn`: the uses of places and names in a body, each with the locals that can be seen there.
* `Use.IsAllowed`, `IsWellScoped`: what may be used where.
* `Scope.Declares`: a check that leaves behind the locals of a block, or the first of them if it fails.
* `exists_checkBody_iff`: a check succeeds exactly on the well-scoped bodies.
* `checkBody_lexical`: the check of a body accepts exactly the well-scoped ones, and leaves the scope clean.
-/
namespace MessageRouter

/-! ## Uses -/

/-- What a statement does with a place or a name. -/
inductive Use where
  | read (p : Place)
  | measure (p : Place)
  | assign (p : Place)
  | declare (name : String)

/-- What an operand reads and measures. -/
def Operand.uses : Operand → List Use
  | .int _ | .bool _ => []
  | .place p => [.read p]
  | .bits p => [.measure p]
  | .unary _ x => x.uses
  | .binary _ a b => a.uses ++ b.uses

/-- What a statement does, its blocks apart. -/
def Stmt.uses : Stmt → List Use
  | .declare name value => value.uses ++ [.declare name]
  | .set target value => .assign target :: value.uses
  | .branch cond _ _ => cond.uses
  | .throw _ | .ret => []

def Stmt.blocks : Stmt → List (List Stmt)
  | .branch _ thenBody elseBody => [thenBody, elseBody]
  | .declare .. | .set .. | .throw _ | .ret => []

/-- The local that a statement declares for those after it. -/
def Stmt.declared : Stmt → List String
  | .declare name _ => [name]
  | .set .. | .branch .. | .throw _ | .ret => []

/-- The locals that a block declares, in their order; those of the blocks in it are none of them. -/
def declaredNames (body : List Stmt) : List String := body.flatMap Stmt.declared

/-- A use in a body before which some locals can be seen, and the locals that can be seen there: those that are
declared by an earlier statement of the same block or of one around it. -/
inductive UsedIn : List String → List Stmt → Use → List String → Prop where
  | here {visible st rest use} (h : use ∈ st.uses) : UsedIn visible (st :: rest) use visible
  | inBlock {visible st rest block use names} (hblock : block ∈ st.blocks)
      (h : UsedIn visible block use names) : UsedIn visible (st :: rest) use names
  | later {visible st rest use names} (h : UsedIn (st.declared ++ visible) rest use names) :
      UsedIn visible (st :: rest) use names

/-- What may be used where some locals can be seen. -/
inductive Use.IsAllowed (state : List Field) (payload : Payload) (visible : List String) : Use → Prop where
  | readState {f} (hf : f ∈ state) : IsAllowed state payload visible (.read ⟨Place.self, some f.name⟩)
  /-- Of a message, the fields that it keeps. -/
  | readPayload {binding message fields isPartial dropped f}
      (hp : payload = .struct binding message fields isPartial dropped) (hf : f ∈ fields) :
      IsAllowed state payload visible (.read ⟨binding, some f.name⟩)
  | readLocal {name} (h : name ∈ visible) : IsAllowed state payload visible (.read ⟨name, none⟩)
  | measure {binding} (hp : payload = .slice binding) :
      IsAllowed state payload visible (.measure ⟨binding, none⟩)
  | assignState {f} (hf : f ∈ state) : IsAllowed state payload visible (.assign ⟨Place.self, some f.name⟩)
  | assignLocal {name} (h : name ∈ visible) : IsAllowed state payload visible (.assign ⟨name, none⟩)
  | declare {name} (hself : name ≠ Place.self) (hp : payload.binding? ≠ some name) :
      IsAllowed state payload visible (.declare name)

/-- A body in which everything is used where it is allowed. -/
def IsWellScoped (state : List Field) (payload : Payload) (visible : List String) (body : List Stmt) : Prop :=
  ∀ use names, UsedIn visible body use names → use.IsAllowed state payload names

section WellScoped

variable {state : List Field} {payload : Payload} {visible : List String}

theorem isWellScoped_nil : IsWellScoped state payload visible [] := nofun

theorem isWellScoped_cons {st : Stmt} {rest : List Stmt} :
    IsWellScoped state payload visible (st :: rest) ↔
      (∀ use ∈ st.uses, use.IsAllowed state payload visible) ∧
        (∀ block ∈ st.blocks, IsWellScoped state payload visible block) ∧
          IsWellScoped state payload (st.declared ++ visible) rest := by
  constructor
  · intro h
    exact ⟨fun use huse => h use visible (.here huse),
      fun block hblock use names hused => h use names (.inBlock hblock hused),
      fun use names hused => h use names (.later hused)⟩
  · rintro ⟨huses, hblocks, hrest⟩ use names hused
    cases hused with
    | here huse => exact huses use huse
    | inBlock hblock hused => exact hblocks _ hblock use names hused
    | later hused => exact hrest use names hused

end WellScoped

namespace Scope

variable {s t u : Scope}

/-! ## What a check leaves behind -/

/-- A scope whose innermost block has some more locals, which were declared in this order. -/
structure Gains (s t : Scope) (names : List String) : Prop extends s.Widens t where
  inner : t.inner = names.reverse ++ s.inner

theorem Gains.refl (s : Scope) : s.Gains s [] := ⟨.refl s, rfl⟩

theorem Gains.trans {names names' : List String} (h : s.Gains t names) (h' : t.Gains u names') :
    s.Gains u (names ++ names') where
  toWidens := h.toWidens.trans h'.toWidens
  inner := by rw [h'.inner, h.inner, List.reverse_append, List.append_assoc]

theorem Gains.of_declare {name : String} (h : s.declare name = .ok t) : s.Gains t [name] where
  toWidens := .of_declare h
  inner := by
    obtain ⟨-, -, rfl⟩ := declare_eq_ok_iff.mp h
    rfl

/-- A check that adds some locals to the innermost block, or the first of them if it fails. -/
inductive Declares {α : Type} (s : Scope) (names : List String) : EStateM.Result ScopeError Scope α → Prop
  | ok {a : α} {t : Scope} (h : s.Gains t names) : Declares s names (.ok a t)
  | error {e : ScopeError} {t : Scope} {before : List String} (hbefore : before <+: names)
      (h : s.Gains t before) : Declares s names (.error e t)

section Declares

variable {α β : Type} {names names' : List String}

theorem Declares.bind {x : Checking α} {f : α → Checking β} (h : s.Declares names (x s))
    (hf : ∀ a (t : Scope), t.Declares names' (f a t)) : s.Declares (names ++ names') ((x >>= f) s) := by
  cases hx : x s with
  | error e t =>
    rw [Fallible.stateful_bind_of_error f hx]
    rw [hx] at h
    cases h with
    | error hbefore h => exact .error (hbefore.trans (List.prefix_append _ _)) h
  | ok a t =>
    rw [Fallible.stateful_bind_of_ok f hx]
    rw [hx] at h
    cases h with
    | ok h =>
      have hrest := hf a t
      generalize f a t = result at hrest ⊢
      cases hrest with
      | ok h' => exact .ok (h.trans h')
      | error hbefore h' => exact .error ((List.prefix_append_right_inj names).mpr hbefore) (h.trans h')

theorem declares_inScope (check : Scope → Except ScopeError α) (s : Scope) :
    s.Declares [] (Checking.inScope check s) := by
  unfold Checking.inScope
  split
  · exact .ok (.refl s)
  · exact .error (List.prefix_refl _) (.refl s)

theorem declares_declare (name : String) (s : Scope) : s.Declares [name] (Checking.declare name s) := by
  unfold Checking.declare
  split
  · next ht => exact .ok (.of_declare ht)
  · exact .error (List.nil_prefix) (.refl s)

/-- A block leaves nothing behind, however it ends. -/
theorem declares_inBlock {check : Checking Unit} (h : s.push.Declares names (check s.push)) :
    s.Declares [] (Checking.inBlock check s) := by
  unfold Checking.inBlock
  generalize check s.push = result at h ⊢
  cases h with
  | ok h => exact .ok (h.toWidens.pop_eq ▸ .refl s)
  | error _ h => exact .error (List.prefix_refl _) (h.toWidens.pop_eq ▸ .refl s)

end Declares

mutual

/-- The check of a statement leaves at most its declaration behind. -/
theorem declares_checkStmt (st : Stmt) (s : Scope) : s.Declares st.declared (checkStmt st s) := by
  cases st with
  | declare name value => exact (declares_inScope _ s).bind fun _ t => declares_declare name t
  | set target value => exact (declares_inScope _ s).bind fun _ t => declares_inScope _ t
  | branch cond thenBody elseBody =>
    refine (declares_inScope _ s).bind fun _ t => ?_
    have hthen : t.Declares [] (Checking.inBlock (checkBody thenBody) t) :=
      declares_inBlock (declares_checkBody thenBody t.push)
    refine hthen.bind fun _ u => ?_
    exact declares_inBlock (declares_checkBody elseBody u.push)
  | throw code | ret => exact .ok (.refl s)

/-- The check of a body leaves its own declarations behind, or the first of them if it fails. -/
theorem declares_checkBody (body : List Stmt) (s : Scope) :
    s.Declares (declaredNames body) (checkBody body s) := by
  cases body with
  | nil => exact .ok (.refl s)
  | cons st rest => exact (declares_checkStmt st s).bind fun _ t => declares_checkBody rest t

end

/-! ## Which checks succeed -/

/-- A scope in which exactly some locals can be seen, none of which is named like the state or the payload. -/
structure Sees (s : Scope) (visible : List String) : Prop where
  locals : ∀ name, s.isLocal name = true ↔ name ∈ visible
  apart : ∀ name ∈ visible, name ≠ Place.self ∧ s.payload.binding? ≠ some name
  payload : s.payload.binding? ≠ some Place.self

section Sees

variable {visible : List String}

theorem Sees.ofReceiver {state : List Field} {payload : Payload} (h : payload.binding? ≠ some Place.self) :
    (ofReceiver state payload).Sees [] :=
  ⟨fun _ => iff_of_false nofun List.not_mem_nil, nofun, h⟩

theorem Sees.push (h : s.Sees visible) : s.push.Sees visible := ⟨h.locals, h.apart, h.payload⟩

theorem Sees.declare {name : String} (h : s.Sees visible) (ht : s.declare name = .ok t) :
    t.Sees (name :: visible) := by
  obtain ⟨hself, hpayload, rfl⟩ := declare_eq_ok_iff.mp ht
  refine ⟨fun other => ?_, List.forall_mem_cons.mpr ⟨⟨hself, hpayload⟩, h.apart⟩, h.payload⟩
  rw [List.mem_cons, ← h.locals other]
  simp [isLocal, or_assoc]

/-- After a statement, its declaration can be seen too. -/
theorem Sees.of_checkStmt {st : Stmt} (h : s.Sees visible) (ht : checkStmt st s = .ok () t) :
    t.Sees (st.declared ++ visible) := by
  cases st with
  | declare name value => exact h.declare (checkStmt_declare ht).2
  | set target value =>
    obtain ⟨-, -, rfl⟩ := checkStmt_set ht
    exact h
  | branch cond thenBody elseBody =>
    obtain ⟨-, -, -, rfl⟩ := checkStmt_branch ht
    exact h
  | throw code | ret =>
    injection ht with _ ht
    exact ht ▸ h

/-! ### Places -/

theorem resolves_stateField {f : Field} (hf : f ∈ s.state) :
    ∃ g, s.Resolves ⟨Place.self, some f.name⟩ (.stateField g) := by
  obtain ⟨g, hg⟩ := exists_field?_of_mem hf
  exact ⟨g, .stateField hg⟩

theorem Sees.resolves_localVar {name : String} (h : s.Sees visible) (hname : name ∈ visible) :
    s.Resolves ⟨name, none⟩ .localVar :=
  .localVar (h.apart name hname).1 (h.apart name hname).2 ((h.locals name).mpr hname)

theorem Sees.binding_ne_self {binding : String} (h : s.Sees visible) (hp : s.payload.binding? = some binding) :
    binding ≠ Place.self := by
  rintro rfl
  exact h.payload hp

theorem checkRead_of_resolves {p : Place} {b : Binding} (h : s.Resolves p b)
    (hb : ∀ binding, b ≠ .payloadSlice binding) : s.checkRead p = .ok () := by
  refine Fallible.bind_eq_ok_iff.mpr ⟨b, resolve_of_resolves h, ?_⟩
  cases b with
  | payloadSlice binding => exact absurd rfl (hb binding)
  | stateField | payloadField | localVar => rfl

theorem checkRead_eq_ok_iff (h : s.Sees visible) {p : Place} :
    s.checkRead p = .ok () ↔ (Use.read p).IsAllowed s.state s.payload visible := by
  constructor
  · intro hread
    obtain ⟨b, hb, hslice⟩ := resolve_of_checkRead hread
    cases resolves_of_resolve hb with
    | stateField hf =>
      obtain ⟨hmem, rfl⟩ := mem_of_field? hf
      exact .readState hmem
    | payloadField _ hp hf =>
      obtain ⟨hmem, rfl⟩ := mem_of_field? hf
      exact .readPayload hp hmem
    | payloadSlice => exact absurd rfl (hslice _)
    | localVar _ _ hl => exact .readLocal ((h.locals _).mp hl)
  · intro hallowed
    cases hallowed with
    | readState hf =>
      obtain ⟨g, hg⟩ := resolves_stateField hf
      exact checkRead_of_resolves hg nofun
    | readPayload hp hf =>
      obtain ⟨g, hg⟩ := exists_field?_of_mem hf
      have hself := h.binding_ne_self (congrArg Payload.binding? hp)
      exact checkRead_of_resolves (.payloadField hself hp hg) nofun
    | readLocal hname => exact checkRead_of_resolves (h.resolves_localVar hname) nofun

theorem checkMeasure_eq_ok_iff (h : s.Sees visible) {p : Place} :
    s.checkMeasure p = .ok () ↔ (Use.measure p).IsAllowed s.state s.payload visible := by
  constructor
  · intro hmeasure
    obtain ⟨binding, hb⟩ := resolve_of_checkMeasure hmeasure
    cases resolves_of_resolve hb with
    | payloadSlice _ hp => exact .measure hp
  · intro hallowed
    cases hallowed with
    | measure hp =>
      have hself := h.binding_ne_self (congrArg Payload.binding? hp)
      exact Fallible.bind_eq_ok_iff.mpr ⟨_, resolve_of_resolves (.payloadSlice hself hp), rfl⟩

theorem exists_resolveTarget_iff (h : s.Sees visible) {p : Place} :
    (∃ b, s.resolveTarget p = .ok b) ↔ (Use.assign p).IsAllowed s.state s.payload visible := by
  constructor
  · rintro ⟨b, htarget⟩
    obtain ⟨hb, ⟨f, rfl⟩ | rfl⟩ := resolve_of_resolveTarget htarget
    · cases resolves_of_resolve hb with
      | stateField hf =>
        obtain ⟨hmem, rfl⟩ := mem_of_field? hf
        exact .assignState hmem
    · cases resolves_of_resolve hb with
      | localVar _ _ hl => exact .assignLocal ((h.locals _).mp hl)
  · intro hallowed
    cases hallowed with
    | assignState hf =>
      obtain ⟨g, hg⟩ := resolves_stateField hf
      exact ⟨_, Fallible.bind_eq_ok_iff.mpr ⟨_, resolve_of_resolves hg, rfl⟩⟩
    | assignLocal hname =>
      exact ⟨_, Fallible.bind_eq_ok_iff.mpr ⟨_, resolve_of_resolves (h.resolves_localVar hname), rfl⟩⟩

theorem exists_declare_iff {name : String} :
    (∃ t, s.declare name = .ok t) ↔ (Use.declare name).IsAllowed s.state s.payload visible := by
  constructor
  · rintro ⟨t, ht⟩
    obtain ⟨hself, hpayload, -⟩ := declare_eq_ok_iff.mp ht
    exact .declare hself hpayload
  · intro hallowed
    cases hallowed with
    | declare hself hpayload => exact ⟨_, declare_eq_ok_iff.mpr ⟨hself, hpayload, rfl⟩⟩

/-! ### Operands, statements and bodies -/

/-- The check of an operand succeeds exactly if all it uses is allowed. -/
theorem checkOperand_eq_ok_iff (h : s.Sees visible) {x : Operand} :
    s.checkOperand x = .ok () ↔ ∀ use ∈ x.uses, use.IsAllowed s.state s.payload visible := by
  induction x with
  | int | bool => exact iff_of_true rfl nofun
  | place p => exact (checkRead_eq_ok_iff h).trans List.forall_mem_singleton.symm
  | bits p => exact (checkMeasure_eq_ok_iff h).trans List.forall_mem_singleton.symm
  | unary op x ih => exact ih
  | binary op a b iha ihb =>
    rw [Operand.uses, List.forall_mem_append, ← iha, ← ihb]
    refine Fallible.bind_eq_ok_iff.trans ⟨?_, ?_⟩
    · rintro ⟨_, ha, hb⟩
      exact ⟨ha, hb⟩
    · rintro ⟨ha, hb⟩
      exact ⟨(), ha, hb⟩

end Sees

section Statements

theorem inBlock_of_ok {body : List Stmt} (h : ∃ t, checkBody body s.push = .ok () t) :
    Checking.inBlock (checkBody body) s = .ok () s := by
  obtain ⟨t, ht⟩ := h
  rw [Checking.inBlock, ht]
  exact congrArg _ (widens_of_checkBody body ht).pop_eq

theorem exists_checkStmt_declare_iff {name : String} {value : Operand} :
    (∃ t, checkStmt (.declare name value) s = .ok () t) ↔
      s.checkOperand value = .ok () ∧ ∃ t, s.declare name = .ok t := by
  constructor
  · rintro ⟨t, h⟩
    obtain ⟨hvalue, ht⟩ := checkStmt_declare h
    exact ⟨hvalue, t, ht⟩
  · rintro ⟨hvalue, t, ht⟩
    have hdeclare : Checking.declare name s = .ok () t := by rw [Checking.declare, ht]
    exact ⟨t, Fallible.stateful_bind_eq_ok_iff.mpr ⟨(), s, Checking.inScope_of_ok hvalue, hdeclare⟩⟩

theorem exists_checkStmt_set_iff {target : Place} {value : Operand} :
    (∃ t, checkStmt (.set target value) s = .ok () t) ↔
      (∃ b, s.resolveTarget target = .ok b) ∧ s.checkOperand value = .ok () := by
  constructor
  · rintro ⟨t, h⟩
    obtain ⟨htarget, hvalue, -⟩ := checkStmt_set h
    exact ⟨htarget, hvalue⟩
  · rintro ⟨⟨b, htarget⟩, hvalue⟩
    refine ⟨s, Fallible.stateful_bind_eq_ok_iff.mpr ⟨b, s, Checking.inScope_of_ok htarget, ?_⟩⟩
    exact Checking.inScope_of_ok hvalue

theorem exists_checkStmt_branch_iff {cond : Operand} {thenBody elseBody : List Stmt} :
    (∃ t, checkStmt (.branch cond thenBody elseBody) s = .ok () t) ↔
      s.checkOperand cond = .ok () ∧ (∃ t, checkBody thenBody s.push = .ok () t) ∧
        ∃ t, checkBody elseBody s.push = .ok () t := by
  constructor
  · rintro ⟨t, h⟩
    obtain ⟨hcond, hthen, helse, -⟩ := checkStmt_branch h
    exact ⟨hcond, hthen, helse⟩
  · rintro ⟨hcond, hthen, helse⟩
    refine ⟨s, Fallible.stateful_bind_eq_ok_iff.mpr ⟨(), s, Checking.inScope_of_ok hcond, ?_⟩⟩
    exact Fallible.stateful_bind_eq_ok_iff.mpr ⟨(), s, inBlock_of_ok hthen, inBlock_of_ok helse⟩

end Statements

mutual

/-- The check of a statement succeeds exactly if all it uses is allowed and its blocks are well scoped. -/
theorem exists_checkStmt_iff {s : Scope} {visible : List String} (st : Stmt) (h : s.Sees visible) :
    (∃ t, checkStmt st s = .ok () t) ↔
      (∀ use ∈ st.uses, use.IsAllowed s.state s.payload visible) ∧
        ∀ block ∈ st.blocks, IsWellScoped s.state s.payload visible block := by
  cases st with
  | declare name value =>
    rw [exists_checkStmt_declare_iff, checkOperand_eq_ok_iff h, exists_declare_iff, Stmt.uses,
      List.forall_mem_append, List.forall_mem_singleton]
    exact (and_iff_left nofun).symm
  | set target value =>
    rw [exists_checkStmt_set_iff, exists_resolveTarget_iff h, checkOperand_eq_ok_iff h, Stmt.uses,
      List.forall_mem_cons]
    exact (and_iff_left nofun).symm
  | branch cond thenBody elseBody =>
    have hthen := exists_checkBody_iff thenBody h.push
    have helse := exists_checkBody_iff elseBody h.push
    rw [exists_checkStmt_branch_iff, checkOperand_eq_ok_iff h, hthen, helse, Stmt.blocks, List.forall_mem_cons,
      List.forall_mem_singleton]
    exact Iff.rfl
  | throw code | ret => exact iff_of_true ⟨s, rfl⟩ ⟨nofun, nofun⟩

/-- The check of a body succeeds exactly if the body is well scoped. -/
theorem exists_checkBody_iff {s : Scope} {visible : List String} (body : List Stmt) (h : s.Sees visible) :
    (∃ t, checkBody body s = .ok () t) ↔ IsWellScoped s.state s.payload visible body := by
  cases body with
  | nil => exact iff_of_true ⟨s, rfl⟩ isWellScoped_nil
  | cons st rest =>
    rw [isWellScoped_cons, ← and_assoc, ← exists_checkStmt_iff st h]
    -- the rest is checked in the scope that the statement leaves behind, of the same state and payload
    constructor
    · rintro ⟨t, ht⟩
      obtain ⟨u, hst, hrest⟩ := checkBody_cons ht
      have hu := widens_of_checkStmt st hst
      have hscoped := (exists_checkBody_iff rest (h.of_checkStmt hst)).mp ⟨t, hrest⟩
      rw [hu.state, hu.payload] at hscoped
      exact ⟨⟨u, hst⟩, hscoped⟩
    · rintro ⟨⟨u, hst⟩, hscoped⟩
      have hu := widens_of_checkStmt st hst
      rw [← hu.state, ← hu.payload] at hscoped
      obtain ⟨t, hrest⟩ := (exists_checkBody_iff rest (h.of_checkStmt hst)).mpr hscoped
      exact ⟨t, Fallible.stateful_bind_eq_ok_iff.mpr ⟨(), u, hst, hrest⟩⟩

end

end Scope

/-- From the start of a receiver, whose payload is not named like the state, a check succeeds exactly on the
well-scoped bodies. From any scope, it leaves behind what the body itself declares, or the first of it if it
fails, and nothing of the blocks in the body. -/
theorem checkBody_lexical (body : List Stmt) :
    (∀ state payload, payload.binding? ≠ some Place.self →
        ((∃ t, checkBody body (Scope.ofReceiver state payload) = .ok () t) ↔
          IsWellScoped state payload [] body)) ∧
      ∀ s : Scope, s.Declares (declaredNames body) (checkBody body s) :=
  ⟨fun _ _ h => Scope.exists_checkBody_iff body (.ofReceiver h), Scope.declares_checkBody body⟩

/-- A local that is declared in a branch can be set there to the length of the payload. Behind the branch it cannot be
read, and the check that fails there leaves behind only what was declared before it in the same block. -/
theorem checkBody_lexical_branch :
    (∃ t, checkBody
        [.branch (.bool true) [.declare "x" (.int 1), .set ⟨"x", none⟩ (.bits ⟨"msg", none⟩)] [], .ret]
        (.ofReceiver [] (.slice "msg")) = .ok () t) ∧
      checkBody
        [.declare "y" (.int 0), .branch (.bool true) [.declare "x" (.int 1)] [],
          .declare "z" (.place ⟨"x", none⟩)]
        (.ofReceiver [] (.slice "msg")) = .error (.unknownName "x") ⟨[], .slice "msg", ["y"], []⟩ := by
  refine ⟨((checkBody_lexical _).1 [] (.slice "msg") (by decide)).mpr ?_, rfl⟩
  have hdeclare : ∀ use ∈ (Stmt.declare "x" (.int 1)).uses, use.IsAllowed [] (.slice "msg") [] :=
    List.forall_mem_singleton.mpr (.declare (by decide) (by decide))
  have hset : ∀ use ∈ (Stmt.set ⟨"x", none⟩ (.bits ⟨"msg", none⟩)).uses,
      use.IsAllowed [] (.slice "msg") ["x"] :=
    List.forall_mem_cons.mpr ⟨.assignLocal List.mem_cons_self, List.forall_mem_singleton.mpr (.measure rfl)⟩
  have hthen : IsWellScoped [] (.slice "msg") []
      [.declare "x" (.int 1), .set ⟨"x", none⟩ (.bits ⟨"msg", none⟩)] :=
    isWellScoped_cons.mpr ⟨hdeclare, nofun, isWellScoped_cons.mpr ⟨hset, nofun, isWellScoped_nil⟩⟩
  have hblocks := List.forall_mem_cons.mpr ⟨hthen, List.forall_mem_singleton.mpr isWellScoped_nil⟩
  exact isWellScoped_cons.mpr ⟨nofun, hblocks, isWellScoped_cons.mpr ⟨nofun, nofun, isWellScoped_nil⟩⟩

end MessageRouter
