import MessageRouter.Proofs.Receiver.Simulation
/-!
# `Proofs.Receiver.Execution` — a generated body runs as the simulated one does

* `Mirrors.declare`, `store`, `push`, `pop`: the variables follow the frame.
* `Mirrors.eval_state`: a return gives the state.
* `Agrees`: where a generated body ends when the simulated one ends somewhere. Exits that no throw causes say
  nothing about it.
* `agrees_stmt`, `agrees_body`: a generated body agrees with the simulated one.
-/
namespace MessageRouter
namespace Simulator

open Code (Env Val Block Stop exec_append exec_singleton)
open Func (codeAll lowerStmt lowerBody)
open Fallible (Ends)
open Identifier (IsValid)

namespace Mirrors

variable {s t : Scope} {c : Call} {f f' : Frame} {env : Env}

/-! ## Blocks and declarations -/

theorem push (h : Mirrors s c f env) : Mirrors s.push c f.push ([] :: env) := by
  obtain ⟨base, rfl, hshows⟩ := h.env
  exact ⟨h.named.push, h.runs.push, h.short, h.fits.push, base, rfl, hshows.state, hshows.payload⟩

/-- A block ends with the variables that were there before it. -/
theorem pop (hs : Mirrors s c f env) {env' : Env} (h : Mirrors t c f' env') (hw : s.push.Widens t) :
    Mirrors s c f'.pop env'.tail := by
  have hfits := h.fits.pop
  rw [hw.pop_eq] at hfits
  refine ⟨hs.named, hs.runs, hs.short, hfits, ?_⟩
  obtain ⟨base, rfl, hshows⟩ := h.env
  have houter := h.fits.outer
  obtain ⟨state, inner, outer⟩ := f'
  cases outer with
  | nil =>
    rw [hw.outer] at houter
    exact nomatch houter
  | cons next outer =>
    refine ⟨base, rfl, ?_, ?_⟩
    · have hstate := hshows.state
      rwa [hw.state] at hstate
    · have hpayload := hshows.payload
      rwa [hw.payload] at hpayload

theorem declare (h : Mirrors s c f env) {name : String} (hname : IsValid .localName name)
    (ht : s.declare name = .ok t) {v : Value} (hv : v.kind ≠ .slice) :
    Mirrors t c (f.declare name v) (env.declare (Func.Name.var name) (Val.ofValue v)) := by
  have hw := Scope.Widens.of_declare ht
  obtain ⟨base, rfl, hshows⟩ := h.env
  refine ⟨h.named.declare hname ht, h.runs.widens hw, h.short, h.fits.declare ht hv, base, ?_, ?_, ?_⟩
  · exact Env.declare_ofLocals base f.inner f.outer name v
  · have hstate := hshows.state
    rwa [← hw.state] at hstate
  · have hpayload := hshows.payload
    rwa [← hw.payload] at hpayload

/-! ## Stores -/

/-- Another variable than that of a field of the state keeps what it holds. -/
theorem showsPayload_setIn (hs : s.IsNamed) {base base' : Block} {name : String} {w : Val}
    (hset : Env.setIn (Func.Name.field Place.self name) w base = some base') {received : Received}
    (h : ShowsPayload base s.payload received) : ShowsPayload base' s.payload received := by
  have hpayload := hs.payload
  cases hp : s.payload with
  | none => trivial
  | struct binding message fields isPartial dropped =>
    rw [hp] at h hpayload
    obtain ⟨⟨hbinding, hself⟩, -⟩ := hpayload
    cases received with
    | nothing | slice rest => trivial
    | struct record =>
      intro other g v hg hv
      rw [Env.lookup_setIn hset, if_neg]
      · exact h other g v hg hv
      -- the binding of a payload is never the name of the state
      · intro heq
        exact hself (Func.Name.field_inj hbinding Place.isValid_self heq).1
  | slice binding =>
    rw [hp] at h hpayload
    cases received with
    | nothing | struct record => trivial
    | slice rest =>
      show base'.lookup _ = _
      rw [Env.lookup_setIn hset, if_neg (Func.Name.var_ne_field hpayload.1 _ _)]
      exact h

theorem showsFields_setIn {base base' : Block} {fields : List Field} {state state' : Record}
    {name : String} {field : Field} {v : Value} (hfield : Scope.field? fields name = some field)
    (hset : Env.setIn (Func.Name.field Place.self field.name) (Val.ofValue v) base = some base')
    (hstate : state.set? name v = some state') (h : ShowsFields base Place.self fields state) :
    ShowsFields base' Place.self fields state' := by
  intro other g w hg hw
  rw [Record.get?_of_set? hstate] at hw
  rw [Env.lookup_setIn hset]
  by_cases hother : other = name
  · subst hother
    obtain rfl : field = g := Option.some.inj (hfield.symm.trans hg)
    rw [if_pos rfl] at hw ⊢
    rw [Option.some.inj hw]
  · rw [if_neg hother] at hw
    rw [if_neg]
    · exact h other g w hg hw
    · intro heq
      have hnames := (Func.Name.field_inj Place.isValid_self Place.isValid_self heq).2
      rw [(Scope.mem_of_field? hg).2, (Scope.mem_of_field? hfield).2] at hnames
      exact hother hnames

/-- What is stored at a place is assigned to its variable. -/
theorem store (h : Mirrors s c f env) {p : Place} {b : Binding} (hb : s.resolveTarget p = .ok b)
    {v : Value} (hv : v.kind ≠ .slice) (hstore : c.store f p v = .ok f') :
    ∃ env', env.set (Func.Expr.variableOf p b) (Val.ofValue v) = .ok env' ∧ Mirrors s c f' env' := by
  have hfits : Ends (·.Fits s) (Exit.IsRunning s.state []) (c.store f p v) :=
    Call.store_ends h.runs h.fits hb hv
  rw [hstore] at hfits
  obtain ⟨base, henv, hshows⟩ := h.env
  -- that the frame fits is known of stores, so what is left is about the block of the fields
  suffices hset : ∃ base', env.set? (Func.Expr.variableOf p b) (Val.ofValue v) =
      some (.ofLocals base' f'.inner f'.outer) ∧ Shows base' s c.received f'.state by
    obtain ⟨base', hset, hshows'⟩ := hset
    exact ⟨_, by rw [Env.set, hset], h.named, h.runs, h.short, hfits, base', rfl, hshows'⟩
  obtain ⟨hresolve, htarget⟩ := Scope.resolve_of_resolveTarget hb
  subst henv
  cases Scope.resolves_of_resolve hresolve with
  | payloadField | payloadSlice => rcases htarget with ⟨_, heq⟩ | heq <;> cases heq
  | @localVar name hself hp hl =>
    simp only [Call.store, if_neg hself] at hstore
    obtain ⟨f'', hlocal⟩ := h.fits.exists_setLocal? hl v
    rw [hlocal] at hstore
    obtain rfl := Except.ok.inj hstore
    obtain ⟨hset, hstate⟩ := Env.set?_local hlocal
    exact ⟨base, hset, by rw [hstate]; exact hshows⟩
  | @stateField name field hfield =>
    simp only [Call.store, if_true, Call.storeState, h.runs.stateFields, Option.getD_some,
      hfield] at hstore
    split at hstore
    · obtain rfl := Except.ok.inj hstore
      obtain ⟨old, hold, -⟩ := h.fits.state name field hfield
      obtain ⟨state', hstate⟩ := Record.exists_set?_of_get? hold v
      obtain ⟨base', hset⟩ := Env.exists_setIn (hshows.state _ _ _ hfield hold) (Val.ofValue v)
      refine ⟨base', Env.set?_base (h.var_ne_field _ _) hset, ?_, ?_⟩
      · show ShowsFields base' Place.self s.state ((f.state.set? name v).getD f.state)
        rw [hstate]
        exact showsFields_setIn hfield hset hstate hshows.state
      · exact showsPayload_setIn h.named hset hshows.payload
    · cases hstore

/-! ## Returns -/

theorem eval_ofParts {parts : List Code.Expr} {vs : List Val} (h : Code.evalAll env parts = .ok vs) :
    Code.eval env (.ofParts parts) = .ok (.ofParts vs) := by
  cases parts with
  | nil =>
    obtain rfl := Except.ok.inj h
    rfl
  | cons e rest =>
    obtain ⟨v, hv, hrest⟩ := Fallible.bind_eq_ok_iff.mp h
    obtain ⟨ws, hws, hvs⟩ := Fallible.bind_eq_ok_iff.mp hrest
    obtain rfl := Except.ok.inj hvs
    cases rest with
    | nil =>
      obtain rfl := Except.ok.inj hws
      exact hv
    | cons e' rest =>
      obtain ⟨w, hw, hws'⟩ := Fallible.bind_eq_ok_iff.mp hws
      obtain ⟨us, hus, hvs⟩ := Fallible.bind_eq_ok_iff.mp hws'
      obtain rfl := Except.ok.inj hvs
      show (Code.evalAll env (e :: e' :: rest)).map Val.tensor = _
      rw [h]
      rfl

/-- The variables of the fields of the state hold the state. -/
theorem evalAll_fields (h : Mirrors s c f env) {fields : List Field} (hfields : fields ⊆ s.state) :
    Code.evalAll env ((Func.fieldVariables Place.self fields).map .var) =
      .ok (fields.filterMap fun g => (f.state.get? g.name).map Val.ofValue) := by
  induction fields with
  | nil => rfl
  | cons g rest ih =>
    have hg := Scope.field?_of_mem h.named.state.nodup (hfields List.mem_cons_self)
    obtain ⟨v, hv, -⟩ := h.fits.state g.name g hg
    have hget := h.get_variableOf (.stateField hg) (Call.read_stateField hv)
    have hrest := ih fun x hx => hfields (List.mem_cons_of_mem _ hx)
    show (do
      let v ← env.get (Func.Name.field Place.self g.name)
      let vs ← Code.evalAll env ((Func.fieldVariables Place.self rest).map .var)
      pure (v :: vs)) = _
    rw [show env.get (Func.Name.field Place.self g.name) = .ok (Val.ofValue v) from hget, hrest,
      List.filterMap_cons, hv]
    rfl

/-- A return gives the state. -/
theorem exec_ret (h : Mirrors s c f env) (lib : Code.Library) :
    Code.exec lib (Func.Stmt.code (.ret (Func.stateVariables s))) env =
      .ok (.returned (valOfState s.state f.state)) := by
  have hstate := eval_ofParts (h.evalAll_fields (List.Subset.refl s.state))
  have hvalue : Code.eval env
      (.tensor [.ofParts ((Func.stateVariables s).map .var), .tensor []]) =
      .ok (valOfState s.state f.state) := by
    simp only [Code.eval, Code.evalAll, Func.stateVariables, hstate]
    rfl
  simp only [Func.Stmt.code, Code.exec, Code.execStmt, hvalue]
  rfl

end Mirrors

/-! ## Bodies -/

/-- Where a generated body ends when the simulated one ends somewhere: with variables that mirror the frame,
with the state that is returned, or with the code that is thrown. -/
def Agrees (fields : List Field) (t : Scope) (c : Call) :
    Except Exit (Flow × Frame) → Except Stop Code.Flow → Prop
  | .ok (.next, f), x => ∃ env, x = .ok (.next env) ∧ Mirrors t c f env
  | .ok (.returned, f), x => x = .ok (.returned (valOfState fields f.state))
  | .error (.thrown code), x => x = .error (.exit code.toNat)
  | .error _, _ => True

section Bodies

variable {fields : List Field} {s t : Scope} {c : Call} {f : Frame} {env : Env}
  {lib : Code.Library}

/-- Operands and stores end by no throw. -/
theorem agrees_error {e : Exit} (h : e.IsRunning s.state []) (x : Except Stop Code.Flow) :
    Agrees fields t c (.error e) x := by
  cases h with
  | thrown hcode => exact nomatch hcode
  | overflow => trivial
  | mismatch hm => cases hm <;> trivial

/-- An operand comes first on both sides. -/
theorem agrees_eval (h : Mirrors s c f env) {x : Operand} {e : Func.Expr}
    (he : Func.Expr.ofOperand s x = .ok e) (hcheck : s.checkOperand x = .ok ())
    {next : Value → Except Exit (Flow × Frame)} {next' : Val → Except Stop Code.Flow}
    (hnext : ∀ v, v.kind ≠ .slice → Agrees fields t c (next v) (next' (Val.ofValue v))) :
    Agrees fields t c (c.eval f x >>= next) (Code.eval env e.code >>= next') := by
  have hends : Ends (·.kind ≠ .slice) (Exit.IsRunning s.state []) (c.eval f x) :=
    Call.eval_ends h.runs h.fits hcheck
  cases hv : c.eval f x with
  | error cause =>
    rw [hv] at hends
    exact agrees_error hends _
  | ok v =>
    rw [hv] at hends
    rw [h.eval_code he hcheck hv]
    exact hnext v hends

/-- The end of a block. -/
theorem Agrees.pop (hs : Mirrors s c f env) (hw : s.push.Widens t) {x : Except Exit (Flow × Frame)}
    {y : Except Stop Code.Flow} (h : Agrees fields t c x y) :
    Agrees fields s c (x >>= fun r => pure (r.1, r.2.pop)) (y >>= fun flow => pure flow.pop) := by
  cases x with
  | error e =>
    cases e with
    | thrown code =>
      obtain rfl : y = _ := h
      rfl
    | _ => trivial
  | ok r =>
    obtain ⟨flow, f'⟩ := r
    cases flow with
    | next =>
      obtain ⟨env', rfl, hmirrors⟩ := h
      exact ⟨env'.tail, rfl, hs.pop hmirrors hw⟩
    | returned =>
      obtain rfl : y = _ := h
      have hstate : f'.pop.state = f'.state := by
        obtain ⟨state, inner, outer⟩ := f'
        cases outer <;> rfl
      show _ = Except.ok (Code.Flow.returned (valOfState fields f'.pop.state))
      rw [hstate]
      rfl

/-- Statements after a statement run where it goes on. -/
theorem Agrees.append {u : Scope} {x : Except Exit (Flow × Frame)} {ss tt : List Code.Stmt}
    (h : Agrees fields u c x (Code.exec lib ss env)) {rest : Frame → Except Exit (Flow × Frame)}
    (hrest : ∀ f env, Mirrors u c f env → Agrees fields t c (rest f) (Code.exec lib tt env)) :
    Agrees fields t c
      (x >>= fun
        | (.returned, f) => pure (.returned, f)
        | (.next, f) => rest f)
      (Code.exec lib (ss ++ tt) env) := by
  rw [exec_append]
  cases x with
  | error e =>
    cases e with
    -- only an exit that the body throws is one of the program
    | thrown code =>
      have hstop : Code.exec lib ss env = _ := h
      rw [hstop]
      rfl
    | _ => trivial
  | ok r =>
    obtain ⟨flow, f'⟩ := r
    cases flow with
    | next =>
      obtain ⟨env', henv', hmirrors⟩ := h
      rw [henv']
      exact hrest f' env' hmirrors
    | returned =>
      have hreturned : Code.exec lib ss env = _ := h
      rw [hreturned]
      rfl

mutual

/-- A generated statement agrees with the simulated one. -/
theorem agrees_stmt (lib : Code.Library) {s t : Scope} {f : Frame} {env : Env} (st : Stmt) (hst : st.IsNamed)
    (hcheck : checkStmt st s = .ok () t) (h : Mirrors s c f env) :
    Agrees s.state t c (c.execStmt st f) (Code.exec lib (lowerStmt s st).code env) := by
  cases st with
  | declare name value =>
    obtain ⟨hvalue, ht⟩ := checkStmt_declare hcheck
    obtain ⟨e, he, heq⟩ := Func.lowerStmt_declare hcheck
    rw [heq, Func.Stmt.code, exec_singleton, Call.execStmt, Code.execStmt]
    refine agrees_eval h he hvalue fun v hv => ?_
    exact ⟨_, rfl, h.declare hst ht hv⟩
  | set target value =>
    obtain ⟨-, hvalue, rfl⟩ := checkStmt_set hcheck
    obtain ⟨b, e, hb, he, heq⟩ := Func.lowerStmt_set hcheck
    rw [heq, Func.Stmt.code, exec_singleton, Call.execStmt, Code.execStmt]
    refine agrees_eval h he hvalue fun v hv => ?_
    have hends : Ends (·.Fits t) (Exit.IsRunning t.state []) (c.store f target v) :=
      Call.store_ends h.runs h.fits hb hv
    -- a store that is refused ends the body, but not by a throw, so nothing is asked of the program
    cases hstore : c.store f target v with
    | error cause =>
      rw [hstore] at hends
      exact agrees_error hends _
    | ok f' =>
      obtain ⟨env', hset, hmirrors⟩ := h.store hb hv hstore
      rw [hset]
      exact ⟨env', rfl, hmirrors⟩
  | branch cond thenBody elseBody =>
    obtain ⟨hcond, ⟨u, hu⟩, ⟨w, hw⟩, rfl⟩ := checkStmt_branch hcheck
    obtain ⟨e, he, heq⟩ := Func.lowerStmt_branch hcheck
    have hthen := agrees_body lib thenBody hst.1 hu h.push
    have helse := agrees_body lib elseBody hst.2 hw h.push
    rw [heq, Func.Stmt.code, exec_singleton, Call.execStmt, Code.execStmt]
    refine agrees_eval h he hcond fun v hv => ?_
    obtain ⟨b, hb⟩ := exists_truth hv
    have htruth := (Val.truth_eq_ok hb).2
    rw [hb, Val.ofValue_eq hv]
    -- both sides enter the same body, in a block that the last step closes
    cases b with
    | true =>
      have hint : Val.intOf v ≠ 0 := htruth.mpr rfl
      show Agrees _ _ _ (c.exec thenBody f.push >>= _) (if Val.intOf v ≠ 0 then _ else _)
      rw [if_pos hint]
      exact hthen.pop h (widens_of_checkBody thenBody hu)
    | false =>
      have hint : ¬Val.intOf v ≠ 0 := fun hne => nomatch htruth.mp hne
      show Agrees _ _ _ (c.exec elseBody f.push >>= _) (if Val.intOf v ≠ 0 then _ else _)
      rw [if_neg hint]
      exact helse.pop h (widens_of_checkBody elseBody hw)
  | throw code => rfl
  | ret => exact h.exec_ret lib

/-- A generated body agrees with the simulated one. -/
theorem agrees_body (lib : Code.Library) {s t : Scope} {f : Frame} {env : Env} (body : List Stmt)
    (hbody : BodyIsNamed body) (hcheck : checkBody body s = .ok () t) (h : Mirrors s c f env) :
    Agrees s.state t c (c.exec body f) (Code.exec lib (codeAll (lowerBody s body)) env) := by
  cases body with
  | nil =>
    injection hcheck with _ ht
    exact ⟨env, rfl, ht ▸ h⟩
  | cons st rest =>
    obtain ⟨u, hst, hrest⟩ := checkBody_cons hcheck
    have hfirst := agrees_stmt lib st hbody.1 hst h
    have hw := widens_of_checkStmt st hst
    rw [Func.lowerBody_cons hst, codeAll, Call.exec]
    refine hfirst.append fun f' env' hmirrors => ?_
    have hafter := agrees_body lib rest hbody.2 hrest hmirrors
    rwa [hw.state] at hafter

end

end Bodies

end Simulator
end MessageRouter
