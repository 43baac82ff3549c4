import MessageRouter.Proofs.Receiver.Execution
import MessageRouter.Proofs.Receiver.Text
/-!
# `Proofs.Receiver.Correctness` — the text of a receiver does what the receiver does

* `exec_unpackFields`: a struct is taken apart into one variable for each field.
* `mirrors_start`: a generated body starts with variables that mirror the frame.
* `run_program`: the program of a procedure computes what its body does.
* `Program.text_of_procedure`: so does the text that is written for a receiver of a program that was read.
-/
namespace MessageRouter
namespace Simulator

open Code (Env Val Block Stop exec_append exec_singleton exec_append_of_next)
open Func (codeAll)
open Identifier (IsValid)

/-! ## Taking structs apart -/

/-- Different names in one block are found with their values, and other names as before. -/
theorem exists_foldl_declare (es : List (String × Val)) (hnodup : (es.map (·.1)).Nodup)
    (block : Block) :
    ∃ block', es.foldl (fun env e => Env.declare e.1 e.2 env) [block] = [block'] ∧
      (∀ e ∈ es, block'.lookup e.1 = some e.2) ∧
      ∀ n, n ∉ es.map (·.1) → block'.lookup n = block.lookup n := by
  induction es generalizing block with
  | nil => exact ⟨block, rfl, nofun, fun _ _ => rfl⟩
  | cons e rest ih =>
    obtain ⟨hnot, hrest⟩ := List.nodup_cons.mp hnodup
    obtain ⟨block', hfold, hfound, hothers⟩ := ih hrest (e :: block)
    refine ⟨block', hfold, ?_, ?_⟩
    · intro e' he'
      rcases List.mem_cons.mp he' with rfl | he'
      · rw [hothers _ hnot, List.lookup_cons_self]
      · exact hfound e' he'
    · intro n hn
      rw [List.map_cons, List.mem_cons, not_or] at hn
      have hb : (n == e.1) = false := by simpa using hn.1
      rw [hothers n hn.2, List.lookup_cons, hb]

/-- One part is no tensor, and stands for itself under one name. -/
theorem declareAll_ofParts {es : List (String × Val)} (hne : es ≠ []) (env : Env) :
    Env.declareAll (es.map (·.1)) (.ofParts (es.map (·.2))) env =
      .ok (es.foldl (fun env e => Env.declare e.1 e.2 env) env) := by
  cases es with
  | nil => exact absurd rfl hne
  | cons e rest =>
    cases rest with
    | nil => rfl
    | cons e' rest =>
      have hzip : ((e :: e' :: rest).map (·.1)).zip ((e :: e' :: rest).map (·.2)) =
          e :: e' :: rest := by
        rw [List.zip_map', List.map_id'']
        exact fun _ => rfl
      show (if ((e :: e' :: rest).map (·.1)).length = ((e :: e' :: rest).map (·.2)).length
        then Except.ok (List.foldl _ env
          (((e :: e' :: rest).map (·.1)).zip ((e :: e' :: rest).map (·.2)))) else _) = _
      rw [if_pos (by simp), hzip]

/-- The variables of the fields of a record, with their values. -/
def fieldEntries (binding : String) (fields : List Field) (r : Record) : List (String × Val) :=
  fields.filterMap fun f =>
    (r.get? f.name).map fun v => (Func.Name.field binding f.name, Val.ofValue v)

theorem map_snd_fieldEntries (binding : String) (fields : List Field) (r : Record) :
    (fieldEntries binding fields r).map (·.2) =
      fields.filterMap fun f => (r.get? f.name).map Val.ofValue := by
  rw [fieldEntries, List.map_filterMap]
  refine List.filterMap_congr fun f _ => ?_
  rw [Option.map_map]
  rfl

/-- Each field that a record holds has a variable. -/
theorem map_fst_fieldEntries (binding : String) {fields : List Field}
    (hfields : FieldsWellFormed fields) {r : Record} (hr : r.Holds fields) :
    (fieldEntries binding fields r).map (·.1) = Func.fieldVariables binding fields := by
  have hall : ∀ f ∈ fields, ((r.get? f.name).map fun v =>
      (Func.Name.field binding f.name, Val.ofValue v)).map (·.1) =
      some (Func.Name.field binding f.name) := by
    intro f hf
    obtain ⟨v, hv, -⟩ := hr f.name f (Scope.field?_of_mem hfields.nodup hf)
    rw [hv]
    rfl
  rw [fieldEntries, List.map_filterMap, List.filterMap_congr hall, List.filterMap_eq_map']
  rfl

/-- No variable is declared twice, so none hides the value of another field. -/
theorem nodup_fieldEntries (binding : String) {fields : List Field} (hfields : FieldsWellFormed fields)
    {r : Record} (hr : r.Holds fields) : ((fieldEntries binding fields r).map (·.1)).Nodup := by
  have hmap : Func.fieldVariables binding fields = (fields.map (·.name)).map (Func.Name.field binding) := by
    simp [Func.fieldVariables]
  rw [map_fst_fieldEntries binding hfields hr, hmap]
  exact hfields.nodup.map fun a b heq => Func.Name.field_right_inj heq

/-- A struct is taken apart into one variable for each field. -/
theorem exec_unpackFields (lib : Code.Library) (binding : String) {fields : List Field}
    (hfields : FieldsWellFormed fields) {r : Record} (hr : r.Holds fields) {block : Block}
    (hblock : block.lookup (Func.Name.var binding) = some (valOfRecord fields r)) :
    ∃ block', Code.exec lib (codeAll (Func.Function.unpackFields binding fields)) [block] =
        .ok (.next [block']) ∧
      ShowsFields block' binding fields r ∧
      ∀ n, (∀ name, n ≠ Func.Name.field binding name) → block'.lookup n = block.lookup n := by
  by_cases hempty : fields = []
  · subst hempty
    exact ⟨block, rfl, nofun, fun _ _ => rfl⟩
  have hnames := map_fst_fieldEntries binding hfields hr
  have hne : fieldEntries binding fields r ≠ [] := by
    intro hnil
    rw [hnil] at hnames
    exact hempty (List.map_eq_nil_iff.mp hnames.symm)
  obtain ⟨block', hfold, hfound, hothers⟩ :=
    exists_foldl_declare _ (nodup_fieldEntries binding hfields hr) block
  refine ⟨block', ?_, ?_, ?_⟩
  · have hunpack : Func.Function.unpackFields binding fields =
        [.unpack (Func.fieldVariables binding fields) (Func.Name.var binding)] :=
      if_neg (by simpa using hempty)
    have hvar : Env.get [block] (Func.Name.var binding) =
        .ok (.ofParts ((fieldEntries binding fields r).map (·.2))) := by
      rw [Env.get, Env.get?_cons, hblock, map_snd_fieldEntries]
      rfl
    rw [hunpack, ← hnames]
    show Code.exec lib [_] _ = _
    rw [exec_singleton, Code.execStmt, Code.eval, hvar]
    show (Env.declareAll _ _ _ >>= _) = _
    rw [declareAll_ofParts hne, hfold]
    rfl
  · intro name f v hf hv
    obtain ⟨hmem, rfl⟩ := Scope.mem_of_field? hf
    refine hfound (Func.Name.field binding f.name, Val.ofValue v) ?_
    exact List.mem_filterMap.mpr ⟨f, hmem, by rw [hv]; rfl⟩
  · intro n hn
    refine hothers n ?_
    rw [hnames]
    intro hmem
    obtain ⟨f, -, rfl⟩ := List.mem_map.mp hmem
    exact hn f.name rfl

/-! ## Starting -/

/-- What a function gets besides the state. -/
def valsOfReceived : Payload → Received → List Val
  | .struct _ _ fields _ _, .struct message => [valOfRecord fields message]
  | .slice _, .slice rest => [.slice rest]
  | _, _ => []

/-- The payload under the name of its parameter. -/
def payloadBlock : Payload → Received → Block
  | .struct binding _ fields _ _, .struct message =>
    [(Func.Name.var binding, valOfRecord fields message)]
  | .slice binding, .slice rest => [(Func.Name.var binding, .slice rest)]
  | _, _ => []

/-- The payload is taken apart if it is a struct; the other variables stay what they are. -/
theorem exec_unpackPayload (lib : Code.Library) {payload : Payload} (hnamed : payload.IsNamed)
    {received : Received} (hreceived : received.Fits payload) {block : Block}
    (hblock : ∀ e ∈ payloadBlock payload received, block.lookup e.1 = some e.2) :
    ∃ block', Code.exec lib (codeAll (Func.Function.unpackPayload payload)) [block] =
        .ok (.next [block']) ∧
      ShowsPayload block' payload received ∧
      ∀ name, block'.lookup (Func.Name.field Place.self name) =
        block.lookup (Func.Name.field Place.self name) := by
  cases payload with
  | none => exact ⟨block, rfl, trivial, fun _ => rfl⟩
  | slice binding =>
    cases received with
    | nothing | struct message => exact hreceived.elim
    | slice rest => exact ⟨block, rfl, hblock _ List.mem_cons_self, fun _ => rfl⟩
  | struct binding name fields isPartial dropped =>
    cases received with
    | nothing | slice rest => exact hreceived.elim
    | struct message =>
      obtain ⟨⟨hbinding, hself⟩, hfields⟩ := hnamed
      obtain ⟨block', hexec, hshows, hothers⟩ :=
        exec_unpackFields lib binding hfields hreceived (hblock _ List.mem_cons_self)
      refine ⟨block', hexec, hshows, fun other => hothers _ fun name heq => ?_⟩
      exact hself (Func.Name.field_inj Place.isValid_self hbinding heq).1.symm

theorem codeAll_append (ss tt : List Func.Stmt) : codeAll (ss ++ tt) = codeAll ss ++ codeAll tt := by
  induction ss with
  | nil => rfl
  | cons s rest ih => rw [List.cons_append, codeAll, codeAll, ih, List.append_assoc]

variable {p : Procedure} {state : Record} {received : Received}

/-- What a function gets, under the names of its parameters. -/
theorem zip_parameters (hreceived : received.Fits p.payload) (v : Val) :
    (Func.Function.ofProcedure p).program.parameters.zip (v :: valsOfReceived p.payload received) =
        (Func.Name.var Place.self, v) :: payloadBlock p.payload received ∧
      (Func.Function.ofProcedure p).program.parameters.length =
        (v :: valsOfReceived p.payload received).length := by
  show List.zip (Func.Name.var Place.self ::
      (Func.Function.payloadParameter p.payload).toList.map (·.name)) _ = _ ∧
    (Func.Name.var Place.self ::
      (Func.Function.payloadParameter p.payload).toList.map (·.name)).length = _
  cases hp : p.payload with
  | none => exact ⟨rfl, rfl⟩
  | struct binding name fields isPartial dropped =>
    rw [hp] at hreceived
    cases received with
    | nothing | slice rest => exact hreceived.elim
    | struct message => exact ⟨rfl, rfl⟩
  | slice binding =>
    rw [hp] at hreceived
    cases received with
    | nothing | struct message => exact hreceived.elim
    | slice rest => exact ⟨rfl, rfl⟩

/-- A payload that is there has the name of its binding. -/
theorem exists_binding_of_mem {payload : Payload} {e : String × Val}
    (he : e ∈ payloadBlock payload received) :
    ∃ binding, payload.binding? = some binding ∧ e.1 = Func.Name.var binding ∧
      payloadBlock payload received = [e] := by
  cases payload with
  | none => exact nomatch he
  | struct binding name fields isPartial dropped =>
    cases received with
    | nothing | slice rest => exact nomatch he
    | struct message =>
      obtain rfl := List.mem_singleton.mp he
      exact ⟨binding, rfl, rfl, rfl⟩
  | slice binding =>
    cases received with
    | nothing | struct message => exact nomatch he
    | slice rest =>
      obtain rfl := List.mem_singleton.mp he
      exact ⟨binding, rfl, rfl, rfl⟩

/-- The payload has another name than the state. -/
theorem lookup_payloadBlock {payload : Payload} (hnamed : payload.IsNamed) (v : Val)
    {e : String × Val} (he : e ∈ payloadBlock payload received) :
    List.lookup e.1 ((Func.Name.var Place.self, v) :: payloadBlock payload received) = some e.2 := by
  obtain ⟨binding, hbinding, hname, hblock⟩ := exists_binding_of_mem he
  have hself := (hnamed.binding hbinding).2
  have hne : (e.1 == Func.Name.var Place.self) = false := by
    simpa [hname] using fun heq => hself (Func.Name.var_inj heq)
  rw [hblock, List.lookup_cons, hne, List.lookup_cons_self]

/-- A generated body starts with variables that mirror the frame. -/
theorem mirrors_start (lib : Code.Library) (h : p.WellFormed) (hstate : state.Holds p.stateFields)
    (hreceived : received.Fits p.payload)
    (hshort : ∀ rest, received = .slice rest → rest.remaining < 2 ^ 127) :
    ∃ env, Code.exec lib
        (codeAll (Func.Function.unpackFields Place.self p.stateFields ++
          Func.Function.unpackPayload p.payload))
        [(Func.Name.var Place.self, valOfRecord p.stateFields state) ::
          payloadBlock p.payload received] = .ok (.next env) ∧
      Mirrors (Scope.ofReceiver p.stateFields p.payload) ⟨p, received⟩ (Frame.ofState state) env := by
  have hnamed : p.payload.IsNamed := h.scope.payload
  have hfields : FieldsWellFormed p.stateFields := h.scope.state
  obtain ⟨block, hexec, hshows, hothers⟩ :=
    exec_unpackFields lib Place.self hfields hstate (List.lookup_cons_self ..)
  have hblock : ∀ e ∈ payloadBlock p.payload received, block.lookup e.1 = some e.2 := by
    intro e he
    obtain ⟨binding, hbinding, hname, -⟩ := exists_binding_of_mem he
    rw [hothers, lookup_payloadBlock hnamed _ he]
    intro name
    rw [hname]
    exact Func.Name.var_ne_field (hnamed.binding hbinding).1 _ _
  -- the fields of the state are not among the variables of the payload
  obtain ⟨block', hexec', hpayload, hself⟩ := exec_unpackPayload lib hnamed hreceived hblock
  refine ⟨[block'], ?_, h.scope, ⟨rfl, rfl, hreceived⟩, hshort, Frame.fits_ofState hstate, block', rfl,
    ?_, hpayload⟩
  · rw [codeAll_append, exec_append_of_next hexec, hexec']
  · intro name f v hf hv
    rw [hself]
    exact hshows name f v hf hv

/-! ## Running -/

/-- A body that closes with a return does not run off its end. -/
theorem endsInReturn_of_exec_next {c : Call} {body : List Stmt} {f f' : Frame}
    (h : c.exec body f = .ok (.next, f')) : endsInReturn body = false := by
  induction body generalizing f with
  | nil => rfl
  | cons st rest ih =>
    rw [Call.exec] at h
    obtain ⟨⟨flow, g⟩, hst, hrest⟩ := Fallible.bind_eq_ok_iff.mp h
    cases flow with
    | returned => cases hrest
    | next =>
      have hends := ih hrest
      cases rest with
      | cons st' rest =>
        rw [endsInReturn, List.getLast?_cons_cons]
        exact hends
      | nil =>
        cases st with
        | ret => cases hst
        | declare | set | branch | throw => rfl

/-- The return that a body may have left out. -/
def closing (p : Procedure) : List Func.Stmt :=
  if p.implicitReturn then [.ret (Func.fieldVariables Place.self p.stateFields)] else []

/-- The body of a function runs after the state and the payload are taken apart. -/
theorem exec_program {lib : Code.Library} {start env : Env}
    (h : Code.exec lib
        (codeAll (Func.Function.unpackFields Place.self p.stateFields ++
          Func.Function.unpackPayload p.payload)) start = .ok (.next env)) :
    Code.exec lib (Func.Function.ofProcedure p).program.body start =
      Code.exec lib
        (codeAll (Func.lowerBody (Scope.ofReceiver p.stateFields p.payload) p.body) ++
          codeAll (closing p)) env := by
  rw [← exec_append_of_next h, ← List.append_assoc, ← codeAll_append, ← codeAll_append]
  rfl

/-- A body that ends gives the state back, by a return of its own or by the one that closes it. -/
theorem exec_closing {lib : Code.Library} (himplicit : p.implicitReturn = !endsInReturn p.body)
    {s t : Scope} {c : Call} (hs : s.state = p.stateFields) (hw : s.Widens t) {f frame : Frame} {flow : Flow}
    {env : Env} {lowered : List Code.Stmt} (hflow : c.exec p.body f = .ok (flow, frame))
    (h : Agrees s.state t c (.ok (flow, frame)) (Code.exec lib lowered env)) :
    Code.exec lib (lowered ++ codeAll (closing p)) env =
      .ok (.returned (valOfState p.stateFields frame.state)) := by
  rw [exec_append]
  cases flow with
  | returned =>
    have hreturned : Code.exec lib lowered env = .ok (.returned (valOfState s.state frame.state)) := h
    rw [hreturned, hs]
    rfl
  | next =>
    obtain ⟨env', henv', hmirrors⟩ := h
    have hret := hmirrors.exec_ret lib
    rw [Func.stateVariables, hw.state, hs] at hret
    have hclosing : codeAll (closing p) =
        Func.Stmt.code (.ret (Func.fieldVariables Place.self p.stateFields)) := by
      rw [closing, himplicit, endsInReturn_of_exec_next hflow]
      rfl
    rw [henv', hclosing]
    exact hret

/-- The program of a procedure computes what its body does: it gives the state back, or throws what the body
throws. -/
theorem run_program (lib : Code.Library) (h : p.WellFormed) (hstate : state.Holds p.stateFields)
    (hreceived : received.Fits p.payload)
    (hshort : ∀ rest, received = .slice rest → rest.remaining < 2 ^ 127) :
    (∀ flow frame, (Call.mk p received).exec p.body (Frame.ofState state) = .ok (flow, frame) →
      (Func.Function.ofProcedure p).program.run lib
          (valOfRecord p.stateFields state :: valsOfReceived p.payload received) =
        .ok (valOfState p.stateFields frame.state)) ∧
    ∀ code, (Call.mk p received).exec p.body (Frame.ofState state) = .error (.thrown code) →
      (Func.Function.ofProcedure p).program.run lib
          (valOfRecord p.stateFields state :: valsOfReceived p.payload received) =
        .error (.exit code.toNat) := by
  obtain ⟨t, ht⟩ := h.checks
  obtain ⟨env, hstart, hmirrors⟩ := mirrors_start lib h hstate hreceived hshort
  have hagrees := agrees_body lib p.body h.body ht hmirrors
  obtain ⟨hzip, hlength⟩ := zip_parameters hreceived (valOfRecord p.stateFields state)
  -- what stands behind the body is for bodies that come to their end
  constructor
  · intro flow frame hflow
    rw [hflow] at hagrees
    have hexec := exec_closing h.implicitReturn rfl (widens_of_checkBody p.body ht) hflow hagrees
    rw [Code.Function.run, if_pos hlength, hzip, exec_program hstart, hexec]
    rfl
  · intro code hthrown
    rw [hthrown] at hagrees
    have hstop : Code.exec lib
        (codeAll (Func.lowerBody (Scope.ofReceiver p.stateFields p.payload) p.body)) env =
        .error (.exit code.toNat) := hagrees
    rw [Code.Function.run, if_pos hlength, hzip, exec_program hstart, exec_append, hstop]
    rfl

end Simulator

open Simulator

/-- The text of a receiver of a program that was read computes what the receiver does in the simulation: where
the body ends, the text gives the state back, and where it stops at a throw, the text throws the same code. -/
theorem Program.text_of_procedure {doc : Json} {prog : Program} (hprog : Program.ofJson doc = .ok prog)
    {c : Contract} (hc : c ∈ prog.contracts) {i : Nat} {p : Procedure}
    (hp : c.procedure prog.registry i = .ok p) (emitComments : Bool) (w : Func.Writer) :
    ∃ w' text f, (Func.Function.ofProcedure p).write emitComments w = .ok () w' ∧
      w'.text = w.text ++ text ∧ Code.Function.ofText? text = some f ∧ f.name = p.function ∧
      ∀ (lib : Code.Library) (state : Record) (received : Received),
        state.Holds c.fields → received.Fits p.payload →
        (∀ rest, received = .slice rest → rest.remaining < 2 ^ 127) →
        (∀ flow frame, (Call.mk p received).exec p.body (Frame.ofState state) = .ok (flow, frame) →
          f.run lib (valOfRecord c.fields state :: valsOfReceived p.payload received) =
            .ok (valOfState c.fields frame.state)) ∧
        ∀ code, (Call.mk p received).exec p.body (Frame.ofState state) = .error (.thrown code) →
          f.run lib (valOfRecord c.fields state :: valsOfReceived p.payload received) =
            .error (.exit code.toNat) := by
  have hwellFormed := Program.wellFormed_of_ofJson hprog
  have hp' := Contract.wellFormed_procedure hwellFormed.registry (hwellFormed.contracts c hc) hp
  have hfields : p.stateFields = c.fields := by
    obtain ⟨r, function, payload, -, -, -, -, rfl⟩ := Contract.procedure_eq_ok hp
    rfl
  obtain ⟨w', text, hwrite, htext, hread⟩ := Func.Function.exists_text hp' emitComments w
  refine ⟨w', text, _, hwrite, htext, hread, rfl, fun lib state received hstate hreceived hshort => ?_⟩
  rw [← hfields] at hstate ⊢
  exact run_program lib hp' hstate hreceived hshort

/-- The text of the counter's receiver of empty messages counts from 5 to 6. -/
theorem Program.text_of_procedure_counter :
    ∃ p w' text f, Contract.counter.procedure .empty 0 = .ok p ∧
      (Func.Function.ofProcedure p).write true .empty = .ok () w' ∧ w'.text = "" ++ text ∧
      Code.Function.ofText? text = some f ∧
      ∀ lib, f.run lib [.int 5] = .ok (.tensor [.int 6, .unit]) := by
  obtain ⟨w', text, f, hwrite, htext, hread, -, hrun⟩ :=
    text_of_procedure ofJson_counterDocument List.mem_cons_self (i := 0) rfl true .empty
  refine ⟨_, w', text, f, rfl, hwrite, htext, hread, fun lib => ?_⟩
  have hstate : Record.Holds Contract.counter.fields ⟨[("n", .int (.ofNat 5))]⟩ :=
    Record.holds_of_forall₂ (.cons ⟨rfl, rfl⟩ .nil)
  have hsum : (Int128.ofNat 5).add? (.ofInt64 1) = some (.ofNat 6) :=
    Int128.ofInt?_eq_some_iff.mpr (by decide)
  refine (hrun lib _ .nothing hstate trivial nofun).1 .next
    ⟨⟨[("n", .int (.ofNat 6))]⟩, [], []⟩ ?_
  show ((inRange ((Int128.ofNat 5).add? (.ofInt64 1)) >>= _) >>= _) = _
  rw [hsum]
  rfl

end MessageRouter
