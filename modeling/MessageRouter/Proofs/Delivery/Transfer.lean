import MessageRouter.Proofs.Delivery.Receipt
/-!
# `Proofs.Delivery.Transfer` — messages to two contracts

* `Simulator.Call.Same`: calls that a body cannot tell apart; it runs in them alike.
* `Simulator.Selection.Alike`: choices of receivers that go together.
* `Contract.Twins`: receivers of two contracts for the same messages and of the same body.
* `Contract.IsTaking`: the questions that the rule asks of receivers.
* `Contract.alike_rule`: two contracts choose alike if they answer these questions alike.
* `Simulator.alike_deliver`: contracts that choose twins do the same to the state.
-/
namespace MessageRouter

open Simulator

/-! ## Calls -/

namespace Simulator.Call

/-- Calls that a body cannot tell apart. -/
structure Same (c c' : Call) : Prop where
  fields : c.procedure.stateFields = c'.procedure.stateFields
  payload : c.procedure.payload = c'.procedure.payload
  received : c.received = c'.received

namespace Same

variable {c c' : Call}

theorem read_eq (h : c.Same c') (f : Frame) (p : Place) : c.read f p = c'.read f p := by
  unfold read readPayload
  rw [h.payload, h.received]

theorem eval_eq (h : c.Same c') (f : Frame) (x : Operand) : c.eval f x = c'.eval f x := by
  induction x with
  | int i | bool b => rfl
  | place p => exact h.read_eq f p
  | bits p => rw [eval, eval, measure, measure, h.read_eq]
  | unary op x ih => rw [eval, eval, ih]
  | binary op a b iha ihb => rw [eval, eval, iha, ihb]

theorem store_eq (h : c.Same c') (f : Frame) (p : Place) (v : Value) :
    c.store f p v = c'.store f p v := by
  unfold store storeState
  rw [h.fields]

mutual

theorem execStmt_eq (h : c.Same c') (s : Stmt) (f : Frame) : c.execStmt s f = c'.execStmt s f := by
  cases s with
  | declare name value => rw [execStmt, execStmt, h.eval_eq]
  | set target value => simp only [execStmt, h.eval_eq, h.store_eq]
  | branch cond thenBody elseBody =>
    simp only [execStmt, h.eval_eq, exec_eq h thenBody, exec_eq h elseBody]
  | throw code | ret => simp only [execStmt]

/-- A body does the same in both calls. -/
theorem exec_eq (h : c.Same c') (body : List Stmt) (f : Frame) : c.exec body f = c'.exec body f := by
  cases body with
  | nil => simp only [exec]
  | cons s rest =>
    rw [exec, exec, execStmt_eq h s]
    refine bind_congr fun r => ?_
    obtain ⟨flow, f'⟩ := r
    cases flow with
    | returned => rfl
    | next => exact exec_eq h rest f'

end

end Same
end Simulator.Call

/-! ## Choices and outcomes -/

namespace Simulator

/-- Choices of receivers that go together and get the same. -/
inductive Selection.Alike {α β : Type} (R : α → β → Prop) : Selection α → Selection β → Prop where
  | call {a : α} {b : β} (h : R a b) (received : Received) : Alike R (.call a received) (.call b received)
  | swallowed : Alike R .swallowed .swallowed
  | unhandled : Alike R .unhandled .unhandled

/-- Outcomes that differ in the index of the receiver at most. -/
structure Outcome.Alike (R : Nat → Nat → Prop) (o o' : Outcome) : Prop where
  state : o.state = o'.state
  handled : o.handled = o'.handled
  receiver : Option.Rel R o.receiver o'.receiver

end Simulator

namespace Contract

/-- Receivers of two contracts for the same messages and of the same body. -/
def Twins (c c' : Contract) (i j : Nat) : Prop :=
  ∃ r r', c.receivers[i]? = some r ∧ c'.receivers[j]? = some r' ∧ r.selector = r'.selector ∧
    r.body = r'.body

variable {c c' : Contract} {registry : Registry} {sim sim' : Simulator} {R : Nat → Nat → Prop}

/-- The bodies of twins do the same to the state. -/
theorem alike_answer_call (h : ofContract c registry = .ok sim) (h' : ofContract c' registry = .ok sim')
    (hfields : c.fields = c'.fields) {i j : Nat} (hR : R i j) (htwins : c.Twins c' i j) (state : Record)
    (received : Received) :
    Fallible.Alike (Outcome.Alike R) (c.answer registry state (.call i received))
      (c'.answer registry state (.call j received)) := by
  obtain ⟨r, r', hr, hr', hselector, hbody⟩ := htwins
  obtain ⟨p, -, hp⟩ := procedures_getElem? h hr
  obtain ⟨p', -, hp'⟩ := procedures_getElem? h' hr'
  obtain ⟨f, payload, -, hpayload, -, hpeq⟩ := procedure_of_getElem? hr hp
  obtain ⟨f', payload', -, hpayload', -, hpeq'⟩ := procedure_of_getElem? hr' hp'
  have hbodies : p.body = p'.body := by
    rw [hpeq, hpeq']
    exact hbody
  have hsame : (Call.mk p received).Same (Call.mk p' received) := by
    refine ⟨?_, ?_, rfl⟩
    · rw [hpeq, hpeq']
      exact hfields
    · rw [hselector] at hpayload
      rw [hpeq, hpeq']
      exact Except.ok.inj (hpayload.symm.trans hpayload')
  simp only [answer, hp, hp', hbodies, hsame.exec_eq]
  cases (Call.mk p' received).exec p'.body (Frame.ofState state) with
  | error e => exact .error e
  | ok stop => exact .ok ⟨rfl, rfl, .some hR⟩

/-- What choices of twins do to the state is the same. -/
theorem alike_answer (h : ofContract c registry = .ok sim) (h' : ofContract c' registry = .ok sim')
    (hfields : c.fields = c'.fields) (htwins : ∀ i j, R i j → c.Twins c' i j) (state : Record)
    {choice choice' : Selection Nat} (hchoice : choice.Alike R choice') :
    Fallible.Alike (Outcome.Alike R) (c.answer registry state choice)
      (c'.answer registry state choice') := by
  cases hchoice with
  | call hR received => exact alike_answer_call h h' hfields hR (htwins _ _ hR) state received
  | swallowed | unhandled => exact .ok ⟨rfl, rfl, .none⟩

end Contract

/-- Contracts that choose twins for a message do the same to the state. -/
theorem Simulator.alike_deliver {c c' : Contract} {registry : Registry} {sim sim' : Simulator}
    {R : Nat → Nat → Prop} {d : Direction} {body : Cell} {isBounced : Bool}
    (h : ofContract c registry = .ok sim) (h' : ofContract c' registry = .ok sim')
    (hfields : c.fields = c'.fields) (htwins : ∀ i j, R i j → c.Twins c' i j)
    (hrule : Fallible.Alike (Selection.Alike R) (c.rule registry d body isBounced)
      (c'.rule registry d body isBounced)) (state : Record) :
    Fallible.Alike (Outcome.Alike R) (sim.deliver d state body isBounced)
      (sim'.deliver d state body isBounced) := by
  rw [deliver_eq_bind_rule h, deliver_eq_bind_rule h']
  exact hrule.bind fun _ _ hchoice => Contract.alike_answer h h' hfields htwins state hchoice

/-! ## Searches -/

namespace Contract

/-- The questions that the rule asks of receivers: whether they take a message that is bounced or is not. -/
inductive IsTaking (registry : Registry) (s : Slice) : Bool → (Receiver → Taking) → Prop where
  | opcode : IsTaking registry s false (takeOpcode registry s)
  | comment : IsTaking registry s false (takeComment s)
  | anyComment : IsTaking registry s false (takeAnyComment s)
  | any : IsTaking registry s false (takeAny s)
  | bounced : IsTaking registry s true (takeBounced registry s)
  | anyBounced : IsTaking registry s true (takeAnyBounced s)

namespace IsTaking

variable {registry : Registry} {s : Slice} {isBounced : Bool} {take : Receiver → Taking}

/-- Bounced messages are taken by receivers of bounces, and others by others. -/
theorem isBounce_eq (h : IsTaking registry s isBounced take) {r : Receiver} {got : Except Exit Received}
    (htake : take r = some got) : r.selector.isBounce = isBounced := by
  cases h with
  | opcode => exact isBounce_of_takeOpcode htake
  | comment => exact isBounce_of_takeComment htake
  | anyComment => exact isBounce_of_takeAnyComment htake
  | any => exact isBounce_of_takeAny htake
  | bounced => exact isBounce_of_takeBounced htake
  | anyBounced => exact isBounce_of_takeAnyBounced htake

end IsTaking

/-- Two lists in which a question finds receivers that go together, or none in both. -/
def FindAlike (R : Nat → Nat → Prop) (take : Receiver → Taking) (rs rs' : List (Receiver × Nat)) : Prop :=
  Option.Rel (Fallible.Alike (Selection.Alike R)) (first take rs) (first take rs')

variable {registry : Registry} {R : Nat → Nat → Prop} {rs rs' : List (Receiver × Nat)}

section Options

variable {α β : Type} {S : α → β → Prop} {a a' : Option α} {b b' : Option β}

theorem rel_orElse (h : Option.Rel S a b) (h' : Option.Rel S a' b') :
    Option.Rel S (a <|> a') (b <|> b') := by
  cases h with
  | some h => exact .some h
  | none => exact h'

theorem rel_getD (h : Option.Rel S a b) {x : α} {y : β} (hxy : S x y) : S (a.getD x) (b.getD y) := by
  cases h with
  | some h => exact h
  | none => exact hxy

end Options

theorem alike_plainRule {s : Slice}
    (h : ∀ take, IsTaking registry s false take → FindAlike R take rs rs') :
    Fallible.Alike (Selection.Alike R) (plainRule registry rs s) (plainRule registry rs' s) := by
  refine rel_getD ?_ (.ok .unhandled)
  refine rel_orElse (h _ .opcode) (rel_orElse (h _ .comment) ?_)
  exact rel_orElse (h _ .anyComment) (h _ .any)

theorem alike_bouncedRule (hany : rs.any (·.1.selector.isBounce) = rs'.any (·.1.selector.isBounce))
    (h : ∀ s take, IsTaking registry s true take → FindAlike R take rs rs') (s : Slice) :
    Fallible.Alike (Selection.Alike R) (bouncedRule registry rs s) (bouncedRule registry rs' s) := by
  unfold bouncedRule
  rw [hany]
  split
  · split
    · exact rel_getD (rel_orElse (h _ _ .bounced) (h _ _ .anyBounced)) (.ok .swallowed)
    · exact .error _
  · exact .ok .swallowed

/-- Two contracts choose alike if they answer the questions of the rule alike. -/
theorem alike_rule {c c' : Contract} {d : Direction} {isBounced : Bool}
    (hany : d = .internal ∧ isBounced = true → (c.receiversFor d).any (·.1.selector.isBounce) =
      (c'.receiversFor d).any (·.1.selector.isBounce))
    (h : ∀ s take, IsTaking registry s (decide (d = .internal) && isBounced) take →
      FindAlike R take (c.receiversFor d) (c'.receiversFor d)) (body : Cell) :
    Fallible.Alike (Selection.Alike R) (c.rule registry d body isBounced)
      (c'.rule registry d body isBounced) := by
  unfold rule
  by_cases hd : d = .internal ∧ isBounced = true
  · rw [if_pos hd, if_pos hd]
    refine alike_bouncedRule (hany hd) (fun s take htake => h s take ?_) _
    rwa [hd.1, hd.2]
  · rw [if_neg hd, if_neg hd]
    refine alike_plainRule fun take htake => h (Slice.ofCell body) take ?_
    have hfalse : (decide (d = .internal) && isBounced) = false := by simpa using hd
    rwa [hfalse]

end Contract
end MessageRouter
