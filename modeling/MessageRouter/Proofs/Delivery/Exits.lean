import MessageRouter.Proofs.Body.Soundness
import MessageRouter.Proofs.Delivery.Decoding
import MessageRouter.Proofs.Delivery.Priority
/-!
# `Proofs.Delivery.Exits` — how a delivery may end early

* `Contract.Taken`: a receiver gets what its payload says, or its message cannot be read.
* `Contract.rule_ends`: whoever is chosen gets what its payload says.
* `Simulator.deliver_eq_error`: a delivery ends early by a throw of the receiver that was chosen, by a message
  that cannot be read, by an overflow, or by a truth value in the place of an integer or the other way about.
-/
namespace MessageRouter

open Simulator
open Fallible (Ends)

namespace Contract

variable {c : Contract} {registry : Registry} {s : Slice} {r : Receiver}
  {got : Except Exit Received}

/-! ## What a receiver takes -/

/-- A receiver gets what its payload says, or its message cannot be read. -/
def Taken (registry : Registry) (r : Receiver) (got : Except Exit Received) : Prop :=
  Ends (fun received => ∃ p, payload registry r.selector = .ok p ∧ received.Fits p) Exit.IsReading got

/-- A struct that is read is what the receiver of its layout gets. -/
theorem taken_of_readLayout {binding : String} {l : Layout} {isPartial : Bool}
    (hpayload : payload registry r.selector = .ok (.ofLayout binding l isPartial))
    (hop : l.header.value.toNat = s.opcode) :
    Taken registry r ((readLayout l isPartial s).map .struct) := by
  have hread := readLayout_ends hop isPartial
  cases h : readLayout l isPartial s with
  | error e =>
    rw [h] at hread
    exact hread
  | ok record =>
    rw [h] at hread
    exact ⟨_, hpayload, hread⟩

theorem taken_of_takeOpcode (h : takeOpcode registry s r = some got) : Taken registry r got := by
  rcases takeOpcode_eq_some h with ⟨d, name, binding, l, hs, hl, hop, rfl⟩ | ⟨d, hs, -, -, rfl⟩
  · have hpayload : payload registry r.selector = .ok (.ofLayout binding l false) := by
      rw [hs]
      exact payload_eq_ok_iff.mpr (.message hl)
    exact taken_of_readLayout hpayload hop
  · exact ⟨.none, by rw [hs]; rfl, trivial⟩

theorem taken_of_takeComment (h : takeComment s r = some got) : Taken registry r got := by
  obtain ⟨d, text, tag, hs, -, -, -, rfl⟩ := takeComment_eq_some h
  exact ⟨.none, by rw [hs]; rfl, trivial⟩

theorem taken_of_takeAnyComment (h : takeAnyComment s r = some got) : Taken registry r got := by
  obtain ⟨d, binding, hs, -, -, rfl⟩ := takeAnyComment_eq_some h
  exact ⟨.slice binding, by rw [hs]; rfl, trivial⟩

theorem taken_of_takeAny (h : takeAny s r = some got) : Taken registry r got := by
  obtain ⟨d, binding, hs, rfl⟩ := takeAny_eq_some h
  exact ⟨.slice binding, by rw [hs]; rfl, trivial⟩

theorem taken_of_takeBounced (h : takeBounced registry s r = some got) : Taken registry r got := by
  obtain ⟨name, binding, isPartial, l, hs, hl, hop, rfl⟩ := takeBounced_eq_some h
  have hpayload : payload registry r.selector = .ok (.ofLayout binding l isPartial) := by
    rw [hs]
    exact payload_eq_ok_iff.mpr (.bounced hl)
  exact taken_of_readLayout hpayload hop

theorem taken_of_takeAnyBounced (h : takeAnyBounced s r = some got) : Taken registry r got := by
  obtain ⟨binding, hs, rfl⟩ := takeAnyBounced_eq_some h
  exact ⟨.slice binding, by rw [hs]; rfl, trivial⟩

/-! ## Whom the rule chooses -/

/-- Whoever is chosen is among some receivers and gets what its payload says. -/
def Chosen (registry : Registry) (rs : List (Receiver × Nat)) (choice : Selection Nat) : Prop :=
  ∀ i received, choice = .call i received →
    ∃ r p, (r, i) ∈ rs ∧ payload registry r.selector = .ok p ∧ received.Fits p

/-- A search for a receiver that takes a message chooses one, or the message cannot be read. -/
theorem first_ends {take : Receiver → Taking} {rs : List (Receiver × Nat)}
    {x : Except Exit (Selection Nat)} (htake : ∀ r got, take r = some got → Taken registry r got)
    (h : first take rs = some x) : Ends (Chosen registry rs) Exit.IsReading x := by
  obtain ⟨⟨r, i⟩, hmem, hr⟩ := List.exists_of_findSome?_eq_some h
  obtain ⟨got, hgot, rfl⟩ := Option.map_eq_some_iff.mp hr
  have htaken := htake r got hgot
  cases got with
  | error e => exact htaken
  | ok received =>
    obtain ⟨p, hp, hfits⟩ := htaken
    intro j received' hcall
    injection hcall with hi hreceived
    exact ⟨r, p, hi ▸ hmem, hp, hreceived ▸ hfits⟩

theorem bouncedRule_ends (registry : Registry) (rs : List (Receiver × Nat)) (s : Slice) :
    Ends (Chosen registry rs) Exit.IsReading (bouncedRule registry rs s) := by
  unfold bouncedRule
  split
  · split
    · generalize hx : Option.getD _ _ = x
      rcases eq_some_or_of_getD_orElse hx with h | h
      · exact first_ends (fun _ _ => taken_of_takeBounced) h
      rcases Option.getD_eq_iff.mp h with h | ⟨_, rfl⟩
      · exact first_ends (fun _ _ => taken_of_takeAnyBounced) h
      · exact nofun
    · exact .underflow _ _
  · exact nofun

theorem plainRule_ends (registry : Registry) (rs : List (Receiver × Nat)) (s : Slice) :
    Ends (Chosen registry rs) Exit.IsReading (plainRule registry rs s) := by
  unfold plainRule
  generalize hx : Option.getD _ _ = x
  rcases eq_some_or_of_getD_orElse hx with h | h
  · exact first_ends (fun _ _ => taken_of_takeOpcode) h
  rcases eq_some_or_of_getD_orElse h with h | h
  · exact first_ends (fun _ _ => taken_of_takeComment) h
  rcases eq_some_or_of_getD_orElse h with h | h
  · exact first_ends (fun _ _ => taken_of_takeAnyComment) h
  rcases Option.getD_eq_iff.mp h with h | ⟨_, rfl⟩
  · exact first_ends (fun _ _ => taken_of_takeAny) h
  · exact nofun

/-- Whoever the rule chooses gets what its payload says. -/
theorem rule_ends (c : Contract) (registry : Registry) (d : Direction) (body : Cell)
    (isBounced : Bool) :
    Ends (Chosen registry (c.receiversFor d)) Exit.IsReading (c.rule registry d body isBounced) := by
  unfold rule
  split
  · exact bouncedRule_ends registry _ _
  · exact plainRule_ends registry _ _

/-! ## Running the receiver -/

/-- A receiver that gets what its payload says leaves a state that holds its fields, or ends as a checked body
may. -/
theorem procedure_ends {i : Nat} {p : Procedure} (h : c.procedure registry i = .ok p)
    (hr : c.receivers[i]? = some r) {received : Received} {given : Payload}
    (hgiven : payload registry r.selector = .ok given) (hfits : received.Fits given)
    {state : Record} (hstate : state.Holds c.fields) :
    Ends (fun result => result.2.state.Holds c.fields)
      (Exit.IsRunning c.fields (bodyThrowCodes r.body))
      ((Call.mk p received).exec p.body (Frame.ofState state)) := by
  obtain ⟨function, given', -, hgiven', hcheck, rfl⟩ := procedure_of_getElem? hr h
  obtain rfl : given = given' := Except.ok.inj (hgiven.symm.trans hgiven')
  obtain ⟨t, ht⟩ := checkBody_of_checkReceiver hcheck
  have hends := Call.exec_ends (c := ⟨⟨c.name, i, r.selector, function, c.fields, given, r.body,
    !endsInReturn r.body⟩, received⟩) r.body ht ⟨rfl, rfl, hfits⟩ (Frame.fits_ofState hstate)
  exact hends.imp (fun _ hlands => hlands.1) fun _ he => he

end Contract

namespace Simulator

/-- A delivery to a contract whose state holds its fields ends early only because the message is too short or
has a number too large for the simulation, or in the body of the receiver that was chosen: by one of its throws,
by an overflow, or by the wrong one of integer and truth value. -/
theorem deliver_eq_error {c : Contract} {registry : Registry} {sim : Simulator}
    (h : ofContract c registry = .ok sim) {d : Direction} {state : Record} {body : Cell}
    {isBounced : Bool} (hstate : state.Holds c.fields) {e : Exit}
    (he : sim.deliver d state body isBounced = .error e) :
    (c.rule registry d body isBounced = .error e ∧ e.IsReading ∧ (e.code = 9 ∨ e.code = 4)) ∨
      ∃ i received r, c.rule registry d body isBounced = .ok (.call i received) ∧
        c.receivers[i]? = some r ∧
        ((∃ code ∈ bodyThrowCodes r.body, e = .thrown code) ∨ (e = .overflow ∧ e.code = 4) ∨
          (e.IsMismatch c.fields ∧ e.code = 7)) := by
  rw [deliver_eq_bind_rule h] at he
  have hrule := c.rule_ends registry d body isBounced
  -- a delivery ends early while the receiver is chosen, or while it runs
  rcases Fallible.bind_eq_error_iff.mp he with he | ⟨choice, hchoice, hanswer⟩
  · rw [he] at hrule
    exact .inl ⟨he, hrule, hrule.code_eq⟩
  refine .inr ?_
  rw [hchoice] at hrule
  cases choice with
  | swallowed | unhandled => cases hanswer
  | call i received =>
    obtain ⟨r, given, hmem, hgiven, hfits⟩ := hrule i received rfl
    have hr := (Contract.getElem?_of_mem_receiversFor hmem).1
    obtain ⟨p, -, hproc⟩ := procedures_getElem? h hr
    refine ⟨i, received, r, hchoice, hr, ?_⟩
    have hends := Contract.procedure_ends hproc hr hgiven hfits hstate
    simp only [Contract.answer, hproc] at hanswer
    rcases Fallible.bind_eq_error_iff.mp hanswer with hexec | ⟨_, _, hnever⟩
    · rw [hexec] at hends
      cases hends with
      | thrown hcode => exact .inl ⟨_, hcode, rfl⟩
      | overflow => exact .inr (.inl ⟨rfl, rfl⟩)
      | mismatch hm => exact .inr (.inr ⟨hm, hm.code_eq⟩)
    · cases hnever

/-- A message that is not empty ends in the throw of the second receiver. -/
theorem deliver_eq_error_counter :
    ∃ sim, ofContract .counter .empty = .ok sim ∧
      Record.Holds Contract.counter.fields ⟨[("n", .int 0)]⟩ ∧
      sim.deliver .internal ⟨[("n", .int 0)]⟩ (.mk (List.replicate 40 true) []) false =
        .error (.thrown 100) ∧
      ∃ i received, Contract.counter.rule .empty .internal (.mk (List.replicate 40 true) []) false =
        .ok (.call i received) := by
  have hstate : Record.Holds Contract.counter.fields ⟨[("n", .int 0)]⟩ := by
    refine Record.holds_of_forall₂ (.cons ⟨rfl, rfl⟩ .nil)
  refine ⟨_, rfl, hstate, rfl, ?_⟩
  rcases deliver_eq_error rfl hstate (show Simulator.deliver _ .internal ⟨[("n", .int 0)]⟩
      (.mk (List.replicate 40 true) []) false = .error (.thrown 100) from rfl) with
    ⟨_, hread, _⟩ | ⟨i, received, _, hrule, _⟩
  · exact nomatch hread
  · exact ⟨i, received, hrule⟩

end Simulator
end MessageRouter
