import MessageRouter.Proofs.Body.Grammar
import MessageRouter.Proofs.Body.Ledger
import MessageRouter.Proofs.Receiver.Lowering
import Mathlib.Logic.Relation
/-!
# `Proofs.Receiver.Locals` — what a local's name denotes where the local can be seen

* `Site`, `Site.Uses`: a place in a body as it is written and as it was read, and the operands that are used there.
* `Site.IsAccepted`: what is written at a site was read and checked.
* `Moment`, `Moment.Step`: a site that a run comes to, with its frame and its ledger.
* `Moment.IsSound.step`: along a run of an accepted body the ledger describes the frame.
* `IsReadBack`, `IsWrittenBack`: the name of a local denotes the local when a body runs, and in generated code.
* `denotes_local_iff`: it does so exactly if it is no truth value.
-/
namespace MessageRouter

open Identifier (IsValid)
open Relation (ReflTransGen)

/-! ## Sites -/

/-- An operand inside of another one, each after what is written for it. -/
inductive Operand.Part : Sexpr → Operand → Sexpr → Operand → Prop where
  | whole {e x} : Part e x e x
  | unary {word op e x e' x'} (h : Part e x e' x') : Part (.list [.word word, e]) (.unary op x) e' x'
  | left {word op e₁ e₂ x₁ x₂ e' x'} (h : Part e₁ x₁ e' x') :
      Part (.list [.word word, e₁, e₂]) (.binary op x₁ x₂) e' x'
  | right {word op e₁ e₂ x₁ x₂ e' x'} (h : Part e₂ x₂ e' x') :
      Part (.list [.word word, e₁, e₂]) (.binary op x₁ x₂) e' x'

/-- The operand of a statement, each after what is written for it. -/
inductive Stmt.Computes : Sexpr → Stmt → Sexpr → Operand → Prop where
  | declare {word name e x} : Computes (.list [.word "let", word, e]) (.declare name x) e x
  | set {word target e x} : Computes (.list [.word "set", word, e]) (.set target x) e x
  | branch {e x blocks thenBody elseBody} :
      Computes (.list (.word "if" :: e :: blocks)) (.branch x thenBody elseBody) e x

/-- The block that a branch runs for a condition, after what is written for it. -/
inductive Stmt.Chooses : Sexpr → Stmt → Bool → List Sexpr → List Stmt → Prop where
  | onlyThen {e x items thenBody elseBody} :
      Chooses (.list [.word "if", e, .list items]) (.branch x thenBody elseBody) true items thenBody
  | thenPart {e x items items' thenBody elseBody} :
      Chooses (.list [.word "if", e, .list items, .list items']) (.branch x thenBody elseBody) true items thenBody
  | elsePart {e x items items' thenBody elseBody} :
      Chooses (.list [.word "if", e, .list items, .list items']) (.branch x thenBody elseBody) false items' elseBody

/-- A place in a body: what is written from there to the end of its block, what it was read as, and what can be seen
there. -/
structure Site where
  items : List Sexpr
  body : List Stmt
  scope : Scope

namespace Site

/-- The start of a body. -/
def ofReceiver (items : List Sexpr) (body : List Stmt) (state : List Field) (payload : Payload) : Site :=
  ⟨items, body, .ofReceiver state payload⟩

/-- The operand of the next statement and all inside of it, each after what is written for it. -/
inductive Uses : Site → Sexpr → Operand → Prop where
  | intro {item items st body s e x e' x'} (hst : Stmt.Computes item st e x) (hpart : Operand.Part e x e' x') :
      Uses ⟨item :: items, st :: body, s⟩ e' x'

/-- From a site to the next statement, or into a block of the present one. -/
inductive Step : Site → Site → Prop where
  | next {item items st body s} : Step ⟨item :: items, st :: body, s⟩ ⟨items, body, Func.scopeAfter s st⟩
  | enter {item items st body s b items' body'} (h : Stmt.Chooses item st b items' body') :
      Step ⟨item :: items, st :: body, s⟩ ⟨items', body', s.push⟩

end Site

/-! ## What is written for a body -/

/-- An operand of allowed places that is what was read of an expression. -/
structure Operand.IsWritten (e : Sexpr) (x : Operand) : Prop where
  places : x.HasNamedPlaces
  truths : x.HasNoTruthPlace
  written : x.toSexpr = e

/-- A body of allowed names and places that is what was read of some expressions. -/
structure BodyIsWritten (items : List Sexpr) (body : List Stmt) : Prop where
  locals : BodyIsNamed body
  places : BodyHasNamedPlaces body
  truths : BodyHasNoTruthPlace body
  written : printBody body = withElses items

namespace BodyIsWritten

variable {item : Sexpr} {items items' : List Sexpr} {st : Stmt} {body body' : List Stmt}

theorem of_readBody (h : readBody items = .ok body) : BodyIsWritten items body := by
  obtain ⟨hreadable, hwritten⟩ := readBody_eq_ok_iff.mp h
  exact ⟨hreadable.locals, hreadable.places, hreadable.truths, hwritten⟩

theorem tail (h : BodyIsWritten (item :: items) (st :: body)) : BodyIsWritten items body :=
  ⟨h.locals.2, h.places.2, h.truths.2, (List.cons.inj h.written).2⟩

/-- The blocks of a branch are written in it. -/
theorem block {b : Bool} (h : BodyIsWritten (item :: items) (st :: body))
    (hblock : Stmt.Chooses item st b items' body') : BodyIsWritten items' body' := by
  have hwritten := (List.cons.inj h.written).1
  -- an else part that is left out stands in what was printed, behind the block in question
  cases hblock with
  | onlyThen | thenPart =>
    rw [Stmt.toSexpr, Sexpr.withElse] at hwritten
    simp only [Sexpr.list.injEq, List.cons.injEq] at hwritten
    exact ⟨h.locals.1.1, h.places.1.2.1, h.truths.1.2.1, hwritten.2.2.1⟩
  | elsePart =>
    rw [Stmt.toSexpr, Sexpr.withElse] at hwritten
    simp only [Sexpr.list.injEq, List.cons.injEq] at hwritten
    exact ⟨h.locals.1.2, h.places.1.2.2, h.truths.1.2.2, hwritten.2.2.2.1⟩

end BodyIsWritten

namespace Operand

variable {e e' : Sexpr} {x x' : Operand}

/-- An operator in front of an operand is written as a word in front of it. -/
theorem exists_toSexpr_unary (op : UnaryOp) (x : Operand) :
    ∃ word, (Operand.unary op x).toSexpr = .list [.word word, x.toSexpr] := by
  cases op with
  | neg => exact ⟨"-", rfl⟩
  | not => exact ⟨"!", rfl⟩

/-- What is written in a written operand is written for the operands inside of it. -/
theorem IsWritten.part (h : x.IsWritten e) (hpart : Part e x e' x') : x'.IsWritten e' := by
  induction hpart with
  | whole => exact h
  | @unary _ op _ x _ _ _ ih =>
    refine ih ⟨h.places, h.truths, ?_⟩
    obtain ⟨word', hsexpr⟩ := exists_toSexpr_unary op x
    have hwritten := hsexpr.symm.trans h.written
    simp only [Sexpr.list.injEq, List.cons.injEq] at hwritten
    exact hwritten.2.1
  | left _ ih =>
    refine ih ⟨h.places.1, h.truths.1, ?_⟩
    have hwritten := h.written
    rw [toSexpr] at hwritten
    simp only [Sexpr.list.injEq, List.cons.injEq] at hwritten
    exact hwritten.2.1
  | right _ ih =>
    refine ih ⟨h.places.2, h.truths.2, ?_⟩
    have hwritten := h.written
    rw [toSexpr] at hwritten
    simp only [Sexpr.list.injEq, List.cons.injEq] at hwritten
    exact hwritten.2.2.1

/-- An allowed name alone is a truth value or a place without a field. -/
theorem IsWritten.eq_place {name : String} (h : x.IsWritten (.word name)) (hname : IsValid .localName name)
    (htruth : name ≠ "true" ∧ name ≠ "false") : x = .place ⟨name, none⟩ := by
  obtain ⟨hplaces, -, hwritten⟩ := h
  cases x with
  | int | bits | binary => exact nomatch hwritten
  | unary op => cases op <;> exact nomatch hwritten
  | bool b =>
    injection hwritten with hwritten
    cases b with
    | true => exact absurd hwritten.symm htruth.1
    | false => exact absurd hwritten.symm htruth.2
  | place p =>
    injection hwritten with hwritten
    -- an allowed name holds no point, so the place that it is the text of has no field
    have hpoint : '.' ∉ name.toList := fun hmem => absurd (hname.2 '.' hmem) (by decide)
    have hsplit := Place.split_display hplaces
    rw [hwritten, Place.split_of_no_point hpoint] at hsplit
    obtain ⟨root, field⟩ := p
    obtain ⟨rfl, rfl⟩ := Prod.mk.inj hsplit
    rfl

end Operand

/-- Where an else part is written instead of left out, the condition stays. -/
theorem Sexpr.exists_withElse_if (cond : Sexpr) (blocks : List Sexpr) :
    ∃ blocks', (Sexpr.list (.word "if" :: cond :: blocks)).withElse = .list (.word "if" :: cond :: blocks') := by
  unfold withElse
  split
  · next hitem =>
    injection hitem with hitem
    obtain rfl := (List.cons.inj (List.cons.inj hitem).2).1
    exact ⟨_, rfl⟩
  · next hitem =>
    injection hitem with hitem
    obtain rfl := (List.cons.inj (List.cons.inj hitem).2).1
    exact ⟨_, rfl⟩
  · exact ⟨_, rfl⟩

namespace BodyIsWritten

variable {item e : Sexpr} {items : List Sexpr} {st : Stmt} {body : List Stmt} {x : Operand}

/-- The operand of a statement is written in it. -/
theorem operand (h : BodyIsWritten (item :: items) (st :: body)) (hst : Stmt.Computes item st e x) :
    x.IsWritten e := by
  have hwritten := (List.cons.inj h.written).1
  cases hst with
  | declare =>
    injection hwritten with hwritten
    simp only [List.cons.injEq] at hwritten
    exact ⟨h.places.1, h.truths.1, hwritten.2.2.1⟩
  | set =>
    injection hwritten with hwritten
    simp only [List.cons.injEq] at hwritten
    exact ⟨h.places.1.2, h.truths.1, hwritten.2.2.1⟩
  | @branch _ _ blocks =>
    obtain ⟨blocks', helse⟩ := Sexpr.exists_withElse_if e blocks
    rw [helse] at hwritten
    injection hwritten with hwritten
    simp only [List.cons.injEq] at hwritten
    exact ⟨h.places.1.1, h.truths.1.1, hwritten.2.1⟩

end BodyIsWritten

/-! ## Accepted bodies -/

/-- The names of the locals that can be seen are allowed, and neither the state nor the payload has one of them. -/
def Scope.HasOwnLocals (s : Scope) : Prop :=
  ∀ name, s.isLocal name = true → IsValid .localName name ∧ name ≠ Place.self ∧ s.payload.binding? ≠ some name

namespace Scope.HasOwnLocals

variable {s t : Scope}

theorem push (h : s.HasOwnLocals) : s.push.HasOwnLocals := h

theorem of_checkStmt (h : s.HasOwnLocals) {st : Stmt} (hst : st.IsNamed) (hcheck : checkStmt st s = .ok () t) :
    t.HasOwnLocals := by
  rcases declare_or_eq_of_checkStmt hcheck with ⟨name, value, rfl, ht⟩ | rfl
  · obtain ⟨hself, hpayload, rfl⟩ := declare_eq_ok_iff.mp ht
    intro other hother
    rcases List.mem_cons.mp (isLocal_iff.mp hother) with rfl | hmem
    · exact ⟨hst, hself, hpayload⟩
    · exact h other (isLocal_iff.mpr hmem)
  · exact h

end Scope.HasOwnLocals

namespace Site

variable {p q : Site} {items : List Sexpr} {body : List Stmt} {state : List Field} {payload : Payload} {t : Scope}

/-- What is written at a site was read, and was checked for a payload in the scope there. -/
structure IsAccepted (payload : Payload) (p : Site) : Prop where
  read : BodyIsWritten p.items p.body
  checked : ∃ t, checkBody p.body p.scope = .ok () t
  payload : p.scope.payload = payload
  locals : p.scope.HasOwnLocals

theorem isAccepted_ofReceiver (hread : readBody items = .ok body)
    (hcheck : checkBody body (.ofReceiver state payload) = .ok () t) :
    (ofReceiver items body state payload).IsAccepted payload :=
  ⟨.of_readBody hread, ⟨t, hcheck⟩, rfl, nofun⟩

/-- What comes next at an accepted site is accepted. -/
theorem IsAccepted.step (h : p.IsAccepted payload) (hstep : p.Step q) : q.IsAccepted payload := by
  obtain ⟨t, ht⟩ := h.checked
  cases hstep with
  | next =>
    obtain ⟨u, hst, hrest⟩ := checkBody_cons ht
    rw [Func.scopeAfter_eq hst]
    exact ⟨h.read.tail, ⟨t, hrest⟩, (widens_of_checkStmt _ hst).payload.trans h.payload,
      h.locals.of_checkStmt h.read.locals.1 hst⟩
  | @enter item items st body s b items' body' hblock =>
    obtain ⟨u, hst, -⟩ := checkBody_cons ht
    refine ⟨h.read.block hblock, ?_, h.payload, h.locals.push⟩
    cases hblock with
    | onlyThen | thenPart => exact (checkStmt_branch hst).2.1
    | elsePart => exact (checkStmt_branch hst).2.2.1

/-- Every site of an accepted body is accepted. -/
theorem IsAccepted.of_reflTransGen (h : p.IsAccepted payload) (hsteps : ReflTransGen Step p q) :
    q.IsAccepted payload := by
  induction hsteps with
  | refl => exact h
  | tail _ hstep ih => exact ih.step hstep

/-- Where a local can be seen, its name is read as the local, unless it is a truth value. -/
theorem IsAccepted.eq_place {name : String} {x : Operand} (h : p.IsAccepted payload) (huse : p.Uses (.word name) x)
    (hlocal : p.scope.isLocal name = true) (htruth : name ≠ "true" ∧ name ≠ "false") : x = .place ⟨name, none⟩ := by
  cases huse with
  | intro hst hpart => exact ((h.read.operand hst).part hpart).eq_place (h.locals name hlocal).1 htruth

/-- In generated code, the place of a local is the variable of the local. -/
theorem IsAccepted.ofOperand_local {name : String} (h : p.IsAccepted payload) (hlocal : p.scope.isLocal name = true) :
    Func.Expr.ofOperand p.scope (.place ⟨name, none⟩) = .ok (.var (Func.Name.var name)) := by
  obtain ⟨-, hself, hpayload⟩ := h.locals name hlocal
  have hresolve : p.scope.resolve ⟨name, none⟩ = .ok .localVar :=
    Scope.resolve_of_resolves (.localVar hself hpayload hlocal)
  rw [Func.Expr.ofOperand, hresolve]
  rfl

end Site

/-! ## Runs -/

namespace Simulator

/-- A site that a run comes to, with the frame and the ledger that it has there. -/
structure Moment extends Site where
  frame : Frame
  ledger : Ledger

namespace Moment

variable {c : Call} {m m' : Moment}

/-- The start of a body. -/
def ofState (p : Site) (state : Record) : Moment := ⟨p, .ofState state, .empty⟩

/-- A statement that goes on to the next one, or a branch that runs a block. -/
inductive Step (c : Call) : Moment → Moment → Prop where
  | next {item items st body s f f' l} (h : c.execStmt st f = .ok (.next, f')) :
      Step c ⟨⟨item :: items, st :: body, s⟩, f, l⟩
        ⟨⟨items, body, Func.scopeAfter s st⟩, f', c.recordStmt st f l⟩
  | enter {item items cond thenBody elseBody body s f l b items' body'}
      (hcond : (c.eval f cond >>= truth) = .ok b)
      (h : Stmt.Chooses item (.branch cond thenBody elseBody) b items' body') :
      Step c ⟨⟨item :: items, .branch cond thenBody elseBody :: body, s⟩, f, l⟩ ⟨⟨items', body', s.push⟩, f.push, l⟩

/-- A run goes from site to site. -/
theorem Step.site (h : Step c m m') : m.toSite.Step m'.toSite := by
  cases h with
  | next => exact .next
  | enter _ h => exact .enter h

/-- The site is one of an accepted body, for the payload of the receiver that runs, and the ledger describes the
frame. -/
structure IsSound (c : Call) (m : Moment) : Prop where
  accepted : m.toSite.IsAccepted c.procedure.payload
  describes : m.ledger.Describes m.scope m.frame

/-- A step of a run of an accepted body keeps the ledger describing the frame. -/
theorem IsSound.step (h : IsSound c m) (hstep : Step c m m') : IsSound c m' := by
  refine ⟨h.accepted.step hstep.site, ?_⟩
  cases hstep with
  | @next item items st body s f f' l hexec =>
    obtain ⟨t, ht⟩ := h.accepted.checked
    obtain ⟨u, hst, -⟩ := checkBody_cons ht
    obtain ⟨w, -, hdescribes, hnext, -⟩ := h.describes.of_execStmt st hst hexec
    obtain rfl := hnext rfl
    show (c.recordStmt st f l).Describes (Func.scopeAfter s st) f'
    rw [Func.scopeAfter_eq hst]
    exact hdescribes
  | enter => exact h.describes.push

/-- Wherever a run of an accepted body comes to, the ledger describes the frame. -/
theorem IsSound.of_reflTransGen (h : IsSound c m) (hsteps : ReflTransGen (Step c) m m') : IsSound c m' := by
  induction hsteps with
  | refl => exact h
  | tail _ hstep ih => exact ih.step hstep

/-- A local that can be seen is read as what was last stored in it. -/
theorem IsSound.eval_local {name : String} (h : IsSound c m) (hlocal : m.scope.isLocal name = true) :
    ∃ v, m.ledger.current? name = some v ∧ c.eval m.frame (.place ⟨name, none⟩) = .ok v := by
  obtain ⟨v, hv, hread⟩ := h.describes.exists_current hlocal
  obtain ⟨-, hself, hpayload⟩ := h.accepted.locals name hlocal
  rw [h.accepted.payload] at hpayload
  refine ⟨v, hv, ?_⟩
  rw [Call.eval, Call.read, if_neg hself, if_neg hpayload, Call.readLocal, hread]

end Moment
end Simulator

/-! ## The names of locals -/

open Simulator

/-- Wherever a run of an accepted body comes to and a local of a name can be seen, what is written as just the name
has the value that was last stored in the innermost and latest such local. -/
def IsReadBack (name : String) : Prop :=
  ∀ items body state payload t, readBody items = .ok body →
    checkBody body (.ofReceiver state payload) = .ok () t →
      ∀ (c : Call) (start : Record) (m : Moment), c.procedure.payload = payload →
        ReflTransGen (Moment.Step c) (.ofState (.ofReceiver items body state payload) start) m →
          ∀ x, m.Uses (.word name) x → m.scope.isLocal name = true →
            ∃ v, m.ledger.current? name = some v ∧ c.eval m.frame x = .ok v

/-- In the code that is generated for an accepted body, a local of a name is declared as the variable of the name, and
wherever it can be seen, what is written as just the name is this variable. -/
def IsWrittenBack (name : String) : Prop :=
  ∀ items body state payload t, readBody items = .ok body →
    checkBody body (.ofReceiver state payload) = .ok () t →
      ∀ p, ReflTransGen Site.Step (.ofReceiver items body state payload) p →
        (∀ value rest, p.body = .declare name value :: rest →
          ∃ e, Func.lowerStmt p.scope (.declare name value) = .declare (Func.Name.var name) e) ∧
        ∀ x, p.Uses (.word name) x → p.scope.isLocal name = true →
          Func.Expr.ofOperand p.scope x = .ok (.var (Func.Name.var name))

theorem isReadBack_of_ne {name : String} (h : name ≠ "true" ∧ name ≠ "false") : IsReadBack name := by
  intro items body state payload t hread hcheck c start m hpayload hsteps x huse hlocal
  subst hpayload
  have hstart : Moment.IsSound c (.ofState (.ofReceiver items body state c.procedure.payload) start) :=
    ⟨Site.isAccepted_ofReceiver hread hcheck, .ofState state c.procedure.payload start⟩
  have hsound := hstart.of_reflTransGen hsteps
  obtain rfl := hsound.accepted.eq_place huse hlocal h
  exact hsound.eval_local hlocal

theorem isWrittenBack_of_ne {name : String} (h : name ≠ "true" ∧ name ≠ "false") : IsWrittenBack name := by
  intro items body state payload t hread hcheck p hsteps
  have haccepted := (Site.isAccepted_ofReceiver hread hcheck).of_reflTransGen hsteps
  refine ⟨fun value rest hbody => ?_, fun x huse hlocal => ?_⟩
  · obtain ⟨u, hchecked⟩ := haccepted.checked
    rw [hbody] at hchecked
    obtain ⟨w, hst, -⟩ := checkBody_cons hchecked
    obtain ⟨e, -, hlower⟩ := Func.lowerStmt_declare hst
    exact ⟨e, hlower⟩
  · obtain rfl := haccepted.eq_place huse hlocal h
    exact haccepted.ofOperand_local hlocal

/-! ### Truth values -/

/-- A local that is named like a truth value, and a use of the name behind it. -/
def truthItems (b : Bool) : List Sexpr :=
  [.list [.word "let", .word (toString b), .int 0], .list [.word "let", .word "copy", .word (toString b)]]

/-- What such items are read as: the use is one of the truth value. -/
def truthBody (b : Bool) : List Stmt := [.declare (toString b) (.int 0), .declare "copy" (.bool b)]

/-- A receiver of such a body. -/
def truthCall (b : Bool) : Call where
  procedure := ⟨"Gate", 0, .empty .internal, "$Gate$_internal_empty", [], .none, truthBody b, true⟩
  received := .nothing

section Truths

variable (b : Bool) (start : Record)

/-- Where the name is used: the local can be seen, and a number was stored in it. -/
def truthMoment : Moment where
  items := (truthItems b).tail
  body := (truthBody b).tail
  scope := ⟨[], .none, [toString b], []⟩
  frame := (Frame.ofState start).declare (toString b) (.int (.ofInt64 0))
  ledger := Ledger.empty.declare (toString b) (.int (.ofInt64 0))

theorem readBody_truthItems : readBody (truthItems b) = .ok (truthBody b) := by cases b <;> rfl

theorem checkBody_truthBody :
    checkBody (truthBody b) (.ofReceiver [] .none) = .ok () ⟨[], .none, ["copy", toString b], []⟩ := by
  cases b <;> rfl

theorem step_truthMoment :
    Moment.Step (truthCall b) (.ofState (.ofReceiver (truthItems b) (truthBody b) [] .none) start)
      (truthMoment b start) := by
  cases b with
  | true | false => exact .next rfl

theorem uses_truthMoment : (truthMoment b start).Uses (.word (toString b)) (.bool b) := .intro .declare .whole

theorem isLocal_truthMoment : (truthMoment b start).scope.isLocal (toString b) = true :=
  Scope.isLocal_iff.mpr List.mem_cons_self

theorem current_truthMoment : (truthMoment b start).ledger.current? (toString b) = some (.int (.ofInt64 0)) := by
  rw [Ledger.current?, truthMoment, Ledger.declare, List.lookup_cons_self, Option.bind_some, List.lookup_cons_self]

theorem not_isReadBack_truth : ¬IsReadBack (toString b) := by
  intro h
  have hstep := step_truthMoment b .empty
  obtain ⟨v, hv, heval⟩ := h _ _ _ _ _ (readBody_truthItems b) (checkBody_truthBody b) (truthCall b) .empty _ rfl
    (.single hstep) _ (uses_truthMoment b .empty) (isLocal_truthMoment b .empty)
  rw [current_truthMoment] at hv
  obtain rfl := Option.some.inj hv
  exact nomatch heval

theorem not_isWrittenBack_truth : ¬IsWrittenBack (toString b) := by
  intro h
  have hstep := (step_truthMoment b .empty).site
  have hsite := h _ _ _ _ _ (readBody_truthItems b) (checkBody_truthBody b) _ (.single hstep)
  exact nomatch hsite.2 _ (uses_truthMoment b .empty) (isLocal_truthMoment b .empty)

end Truths

/-- The name of a local denotes the local wherever it can be seen, both when a body runs and in generated code, exactly
if it is no truth value. A local of such a name can be declared, but it cannot be read. -/
theorem denotes_local_iff (name : String) :
    (IsReadBack name ↔ name ≠ "true" ∧ name ≠ "false") ∧ (IsWrittenBack name ↔ name ≠ "true" ∧ name ≠ "false") := by
  refine ⟨⟨fun h => ⟨?_, ?_⟩, isReadBack_of_ne⟩, ⟨fun h => ⟨?_, ?_⟩, isWrittenBack_of_ne⟩⟩
  · rintro rfl
    exact not_isReadBack_truth true h
  · rintro rfl
    exact not_isReadBack_truth false h
  · rintro rfl
    exact not_isWrittenBack_truth true h
  · rintro rfl
    exact not_isWrittenBack_truth false h

end MessageRouter
