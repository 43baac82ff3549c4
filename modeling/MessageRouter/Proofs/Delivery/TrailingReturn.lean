import MessageRouter.Func.Function
import MessageRouter.Proofs.Delivery.Replacement
/-!
# `Proofs.Delivery.TrailingReturn` — a return at the end of a body, written or left out

* `Simulator.Call.exec_append`: what runs after other statements.
* `Simulator.Call.exec_append_ret`: a return at the end leaves the frame as it is, wherever the body ended.
* `Contract.FitsAfter`: statements that pass the check where the body of a receiver ends.
* `Func.ofProcedure_append_ret`: a return that is written is generated as the one that is left out.
* `Simulator.trailing_return`: the return may be written or left out, and nothing after it counts.
-/
namespace MessageRouter

open Simulator

/-! ## Runs -/

namespace Simulator.Call

/-- What runs after other statements. -/
theorem exec_append (c : Call) (ss tt : List Stmt) (f : Frame) :
    c.exec (ss ++ tt) f =
      c.exec ss f >>= fun
        | (.returned, f) => .ok (.returned, f)
        | (.next, f) => c.exec tt f := by
  induction ss generalizing f with
  | nil => rfl
  | cons s rest ih =>
    rw [List.cons_append, exec, exec, bind_assoc]
    refine bind_congr fun stop => ?_
    obtain ⟨flow, f'⟩ := stop
    cases flow with
    | next => exact ih f'
    | returned => rfl

/-- A return at the end leaves the frame as it is, wherever the body ended. -/
theorem exec_append_ret (c : Call) (body : List Stmt) (f : Frame) :
    c.exec (body ++ [.ret]) f = (c.exec body f).map fun stop => (.returned, stop.2) := by
  rw [exec_append]
  cases c.exec body f with
  | error e => rfl
  | ok stop =>
    obtain ⟨flow, f'⟩ := stop
    cases flow <;> rfl

/-- Nothing runs after a return. -/
theorem exec_append_ret_append (c : Call) (body tail : List Stmt) (f : Frame) :
    c.exec (body ++ [.ret] ++ tail) f = c.exec (body ++ [.ret]) f := by
  rw [exec_append, exec_append_ret]
  cases c.exec body f <;> rfl

end Simulator.Call

/-! ## Checks -/

theorem checkBody_append (ss tt : List Stmt) :
    checkBody (ss ++ tt) = (do checkBody ss; checkBody tt) := by
  induction ss with
  | nil => rfl
  | cons s rest ih => rw [List.cons_append, checkBody, checkBody, ih, bind_assoc]

/-- Whether a body passes does not depend on a return at its end. -/
theorem checkBody_append_ret (body : List Stmt) : checkBody (body ++ [.ret]) = checkBody body := by
  rw [checkBody_append]
  exact bind_pure _

namespace Contract

variable {c : Contract} {registry : Registry} {r : Receiver}

/-- Statements that pass the check where the body of a receiver ends. -/
def FitsAfter (c : Contract) (registry : Registry) (r : Receiver) (tail : List Stmt) : Prop :=
  ∀ payload s, Contract.payload registry r.selector = .ok payload →
    checkBody r.body (Scope.ofReceiver c.fields payload) = .ok () s → ∃ t, checkBody tail s = .ok () t

theorem checkReceiver_append_ret (c : Contract) (payload : Payload) (body : List Stmt) :
    c.checkReceiver payload (body ++ [.ret]) = c.checkReceiver payload body := by
  rw [checkReceiver, checkReceiver, checkBody_append_ret]

/-- A body is accepted with statements after it that fit there exactly if it is accepted, and refused for the
same fault. -/
theorem checkReceiver_append {tail : List Stmt} (htail : c.FitsAfter registry r tail) {payload : Payload}
    (hpayload : Contract.payload registry r.selector = .ok payload) :
    c.checkReceiver payload (r.body ++ tail) = c.checkReceiver payload r.body := by
  rw [checkReceiver, checkReceiver, checkBody_append, EStateM.run, EStateM.run]
  cases hbody : checkBody r.body (Scope.ofReceiver c.fields payload) with
  | error cause s => rw [Fallible.stateful_bind_of_error _ hbody]
  | ok _ s =>
    obtain ⟨t, ht⟩ := htail payload s hpayload hbody
    rw [Fallible.stateful_bind_of_ok _ hbody, ht]

end Contract

/-! ## Generated functions -/

namespace Func

/-- A declaration changes nothing but the locals. -/
theorem state_scopeAfter (s : Scope) (st : MessageRouter.Stmt) : (scopeAfter s st).state = s.state := by
  cases st with
  | declare name value =>
    rw [scopeAfter]
    cases h : s.declare name with
    | error e => rfl
    | ok t =>
      obtain ⟨-, -, rfl⟩ := Scope.declare_eq_ok_iff.mp h
      rfl
  | set | branch | throw | ret => rfl

/-- A return gives back the same variables wherever it stands. -/
theorem lowerBody_append_ret (s : Scope) (body : List MessageRouter.Stmt) :
    lowerBody s (body ++ [.ret]) = lowerBody s body ++ [.ret (stateVariables s)] := by
  induction body generalizing s with
  | nil => rfl
  | cons st rest ih =>
    rw [List.cons_append, lowerBody, lowerBody, ih, List.cons_append]
    have hvariables : stateVariables (scopeAfter s st) = stateVariables s := by
      rw [stateVariables, stateVariables, state_scopeAfter]
    rw [hvariables]

/-- A return that is written is generated as the one that is left out. -/
theorem ofProcedure_append_ret {p : Procedure} (h : p.implicitReturn = true) :
    Function.ofProcedure { p with body := p.body ++ [.ret], implicitReturn := false } =
      Function.ofProcedure p := by
  unfold Function.ofProcedure
  rw [h, if_pos rfl]
  simp only [Bool.false_eq_true, if_false, List.append_nil, lowerBody_append_ret, ← List.append_assoc]
  rfl

end Func

/-! ## Contracts -/

section Contracts

variable {c : Contract} {registry : Registry} {i : Nat} {r : Receiver}

/-- A receiver whose body does not end in a return has one text with the return and without it. -/
theorem Contract.write_withBody_append_ret (hr : c.receivers[i]? = some r)
    (hend : endsInReturn r.body = false) (emitComments : Bool) :
    ((c.withBody i (r.body ++ [.ret])).procedure registry i).map
        (fun p => Func.Function.write emitComments (.ofProcedure p)) =
      (c.procedure registry i).map fun p => Func.Function.write emitComments (.ofProcedure p) := by
  rw [procedure_withBody hr fun payload _ => c.checkReceiver_append_ret payload r.body]
  cases hp : c.procedure registry i with
  | error e => rfl
  | ok p =>
    obtain ⟨function, payload, -, -, -, rfl⟩ := procedure_of_getElem? hr hp
    rw [endsInReturn_append_ret, Except.map, Except.map, Except.map]
    have hsame := Func.ofProcedure_append_ret
      (p := ⟨c.name, i, r.selector, function, c.fields, payload, r.body, !endsInReturn r.body⟩)
      (by rw [hend]; rfl)
    exact congrArg (fun f => Except.ok (Func.Function.write emitComments f)) hsame

/-- A return at the end of a receiver may be written or left out. The contract can be simulated with it exactly
if it can be without it, every message is delivered alike, and the text of the receiver is the same. Nothing
that is added after the return and passes the check there changes a delivery. -/
theorem Simulator.trailing_return (hr : c.receivers[i]? = some r) :
    Fallible.Alike SameDeliveries (ofContract c registry)
        (ofContract (c.withBody i (r.body ++ [.ret])) registry) ∧
      (endsInReturn r.body = false → ∀ emitComments,
        ((c.withBody i (r.body ++ [.ret])).procedure registry i).map
            (fun p => Func.Function.write emitComments (.ofProcedure p)) =
          (c.procedure registry i).map fun p => Func.Function.write emitComments (.ofProcedure p)) ∧
      ∀ tail, c.FitsAfter registry r tail →
        Fallible.Alike SameDeliveries (ofContract (c.withBody i (r.body ++ [.ret])) registry)
          (ofContract (c.withBody i (r.body ++ [.ret] ++ tail)) registry) := by
  refine ⟨?_, fun hend => Contract.write_withBody_append_ret hr hend, fun tail htail => ?_⟩
  · refine alike_ofContract_withBody hr (fun payload _ => c.checkReceiver_append_ret payload r.body) ?_
    intro call f
    rw [Call.exec_append_ret]
    cases call.exec r.body f <;> rfl
  · rw [← Contract.withBody_withBody c i (r.body ++ [Stmt.ret]) (r.body ++ [Stmt.ret] ++ tail)]
    have hfits : (c.withBody i (r.body ++ [.ret])).FitsAfter registry
        { r with body := r.body ++ [.ret] } tail := by
      intro payload s hpayload hbody
      rw [checkBody_append_ret] at hbody
      exact htail payload s hpayload hbody
    refine alike_ofContract_withBody (Contract.getElem?_withBody hr _)
      (fun payload hpayload => Contract.checkReceiver_append hfits hpayload) fun call f => ?_
    rw [Call.exec_append_ret_append]

end Contracts

/-- Keeps the size of the last message and refuses messages without anything in them. -/
def Contract.meter : Contract where
  name := "Meter"
  fields := [⟨"size", .int 64⟩]
  receivers :=
    [⟨.any .internal "body",
        [.declare "bits" (.bits ⟨"body", none⟩),
          .branch (.binary .eq (.place ⟨"bits", none⟩) (.int 0)) [.throw 7] [],
          .set ⟨"self", some "size"⟩ (.place ⟨"bits", none⟩)], none⟩]

/-- Another statement may use the local of the body, but nothing comes of it after the return. -/
theorem Simulator.trailing_return_meter :
    ∃ r sim sim' sim'', Contract.meter.receivers[0]? = some r ∧ endsInReturn r.body = false ∧
      ofContract .meter .empty = .ok sim ∧
      ofContract (Contract.meter.withBody 0 (r.body ++ [.ret])) .empty = .ok sim' ∧
      ofContract (Contract.meter.withBody 0 (r.body ++ [.ret] ++
        [.set ⟨"self", some "size"⟩ (.unary .neg (.place ⟨"bits", none⟩))])) .empty = .ok sim'' ∧
      sim.SameDeliveries sim' ∧ sim'.SameDeliveries sim'' := by
  obtain ⟨r, hr⟩ : ∃ r, Contract.meter.receivers[0]? = some r := ⟨_, rfl⟩
  have hfits : Contract.meter.FitsAfter .empty r
      [.set ⟨"self", some "size"⟩ (.unary .neg (.place ⟨"bits", none⟩))] := by
    obtain rfl := Option.some.inj hr
    intro payload s hpayload hbody
    obtain rfl := Except.ok.inj hpayload
    injection hbody with _ hs
    exact ⟨s, hs ▸ rfl⟩
  obtain ⟨hreturn, -, htail⟩ := trailing_return hr
  obtain rfl := Option.some.inj hr
  exact ⟨_, _, _, _, rfl, rfl, rfl, rfl, rfl, hreturn.of_ok, (htail _ hfits).of_ok⟩

end MessageRouter
