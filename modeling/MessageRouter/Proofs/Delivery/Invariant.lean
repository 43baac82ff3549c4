import MessageRouter.Proofs.Body.Targets
import MessageRouter.Proofs.Delivery.Exits
/-!
# `Proofs.Delivery.Invariant` — the state along a run of deliveries

* `Record.Conforms`: a state with exactly some fields, in order and with values of their kinds.
* `Simulator.Answered`: what a delivery that succeeds has done.
* `Simulator.run`: deliveries one after the other, where one that ends early leaves the state as it was.
* `Simulator.conforms_next`, `Simulator.conforms_run`: every delivery keeps a state conforming, and so every run.
* `Simulator.state_of_run`: the states of a program that was read, and what a delivery leaves alone.
-/
namespace MessageRouter

open Simulator

/-! ## States with exactly some fields -/

/-- The empty name is that of no field. -/
theorem FieldsWellFormed.field?_empty {fields : List Field} (h : FieldsWellFormed fields) :
    Scope.field? fields "" = none := by
  unfold Scope.field?
  rw [List.find?_eq_none]
  intro f hf hname
  obtain ⟨⟨start, hstart, -⟩, -⟩ := h.valid f hf
  have hempty : f.name = "" := by simpa using hname
  rw [hempty] at hstart
  cases hstart

namespace Record

/-- A state with exactly some fields, in order, each with a value of its kind. -/
def Conforms (fields : List Field) (r : Record) : Prop :=
  List.Forall₂ (fun f e => e.1 = f.name ∧ e.2.kind = Value.Kind.ofType f.type) fields r.entries

variable {fields : List Field} {r : Record}

theorem Conforms.names (h : r.Conforms fields) : r.entries.map (·.1) = fields.map (·.name) := by
  obtain ⟨entries⟩ := r
  change List.Forall₂ _ fields entries at h
  induction h with
  | nil => rfl
  | cons hfe _ ih => exact congrArg₂ List.cons hfe.1 ih

theorem Conforms.holds (h : r.Conforms fields) : r.Holds fields := holds_of_forall₂ h

/-- Fields of different names that a state of the same names holds are exactly its fields. -/
theorem conforms_of_holds (hnodup : (fields.map (·.name)).Nodup)
    (hnames : r.entries.map (·.1) = fields.map (·.name)) (hholds : r.Holds fields) :
    r.Conforms fields := by
  obtain ⟨entries⟩ := r
  dsimp only [Conforms] at hnames ⊢
  induction fields generalizing entries with
  | nil =>
    obtain rfl := List.map_eq_nil_iff.mp hnames
    exact .nil
  | cons f fields ih =>
    cases entries with
    | nil => cases hnames
    | cons e entries =>
      obtain ⟨hname, hrest⟩ := List.cons.inj hnames
      obtain ⟨hnew, hnodup⟩ := List.nodup_cons.mp hnodup
      refine .cons ⟨hname, ?_⟩ (ih hnodup entries hrest ?_)
      · -- the first field is found first, and so is the first entry
        obtain ⟨v, hv, hkind⟩ := hholds f.name f (by simp [Scope.field?])
        have he : e.2 = v := by simpa [get?, hname] using hv
        rw [he]
        exact hkind
      · intro name g hg
        have hne : name ≠ f.name := by
          intro heq
          obtain ⟨hmem, hgname⟩ := Scope.mem_of_field? hg
          exact hnew (List.mem_map.mpr ⟨g, hmem, hgname.trans heq⟩)
        have hf : (f.name == name) = false := beq_false_of_ne hne.symm
        obtain ⟨v, hv, hkind⟩ := hholds name g (by rw [← hg]; simp [Scope.field?, hf])
        refine ⟨v, ?_, hkind⟩
        rw [← hv]
        simp [get?, hname, hf]

/-- The zeroed state conforms. -/
theorem conforms_zeroed (fields : List Field) : (zeroed fields).Conforms fields := by
  unfold Conforms zeroed
  rw [List.forall₂_map_right_iff, List.forall₂_same]
  intro f _
  exact ⟨rfl, Value.kind_zeroOf f.type⟩

/-- A value that is read for a field is of its kind. -/
theorem kind_of_fieldOfJson {f : Field} {v : Option Json} {value : Value}
    (h : fieldOfJson f v = .ok value) : value.kind = Value.Kind.ofType f.type := by
  unfold fieldOfJson at h
  split at h
  · obtain rfl := Except.ok.inj h
    exact Value.kind_zeroOf f.type
  · split at h
    · next hkind =>
      obtain rfl := Except.ok.inj h
      exact hkind.symm
    · next hkind =>
      split at h
      · obtain rfl := Except.ok.inj h
        exact hkind.symm
      · cases h
    · next hkind =>
      obtain ⟨i, -, rfl⟩ := Fallible.map_eq_ok_iff.mp h
      exact hkind.symm
    · cases h

/-- A state that is read from JSON conforms. -/
theorem conforms_of_ofJson {j : Json} (h : ofJson fields j = .ok r) : r.Conforms fields := by
  unfold ofJson at h
  split at h
  · obtain rfl := Except.ok.inj h
    exact conforms_zeroed fields
  · split at h
    · cases h
    · obtain ⟨entries, hentries, h⟩ := Fallible.bind_eq_ok_iff.mp h
      obtain rfl := Except.ok.inj h
      refine (Fallible.mapM_eq_ok_iff.mp hentries).imp fun f e he => ?_
      obtain ⟨value, hvalue, he⟩ := Fallible.bind_eq_ok_iff.mp he
      obtain rfl := Except.ok.inj he
      exact ⟨rfl, kind_of_fieldOfJson hvalue⟩
  · cases h

end Record

namespace Simulator

variable {c : Contract} {registry : Registry} {sim : Simulator}

/-! ## One delivery -/

/-- What a delivery from a state has done if it succeeds: nothing, or what the body of a receiver does. -/
inductive Answered (c : Contract) (registry : Registry) (state : Record) : Outcome → Prop where
  | nobody (handled : Bool) : Answered c registry state ⟨state, handled, none⟩
  | receiver {i : Nat} {r : Receiver} {received : Received} {given : Payload} {p : Procedure}
      {flow : Flow} {f : Frame} (hr : c.receivers[i]? = some r)
      (hgiven : Contract.payload registry r.selector = .ok given) (hfits : received.Fits given)
      (hproc : c.procedure registry i = .ok p)
      (hexec : (Call.mk p received).exec p.body (Frame.ofState state) = .ok (flow, f)) :
      Answered c registry state ⟨f.state, true, some i⟩

/-- A delivery that succeeds was answered. -/
theorem answered_of_deliver (h : ofContract c registry = .ok sim) {d : Direction} {state : Record}
    {body : Cell} {isBounced : Bool} {outcome : Outcome}
    (hout : sim.deliver d state body isBounced = .ok outcome) :
    Answered c registry state outcome := by
  rw [deliver_eq_bind_rule h] at hout
  obtain ⟨choice, hchoice, hanswer⟩ := Fallible.bind_eq_ok_iff.mp hout
  cases choice with
  | swallowed | unhandled =>
    obtain rfl := Except.ok.inj hanswer
    exact .nobody _
  | call i received =>
    have hrule := c.rule_ends registry d body isBounced
    rw [hchoice] at hrule
    obtain ⟨r, given, hmem, hgiven, hfits⟩ := hrule i received rfl
    have hr := (Contract.getElem?_of_mem_receiversFor hmem).1
    obtain ⟨p, -, hproc⟩ := procedures_getElem? h hr
    simp only [Contract.answer, hproc] at hanswer
    obtain ⟨⟨flow, f⟩, hexec, hanswer⟩ := Fallible.bind_eq_ok_iff.mp hanswer
    obtain rfl := Except.ok.inj hanswer
    exact .receiver hr hgiven hfits hproc hexec

/-- A delivery keeps what the state holds. -/
theorem Answered.holds {state : Record} {outcome : Outcome} (h : Answered c registry state outcome)
    (hstate : state.Holds c.fields) : outcome.state.Holds c.fields := by
  cases h with
  | nobody => exact hstate
  | receiver hr hgiven hfits hproc hexec =>
    have hends := Contract.procedure_ends hproc hr hgiven hfits hstate
    rw [hexec] at hends
    exact hends

/-- The body of the receiver that ran, if any, sets all that a delivery changes. -/
theorem Answered.changedAt {state : Record} {outcome : Outcome}
    (h : Answered c registry state outcome) (hnamed : Scope.field? c.fields "" = none) :
    Record.ChangedAt
      ((outcome.receiver.bind (c.receivers[·]?)).elim [] fun r => bodyTargets r.body)
      state outcome.state := by
  cases h with
  | nobody => exact .refl _ state
  | @receiver i r received _ _ _ f hr _ _ hproc hexec =>
    obtain ⟨function, payload, -, -, -, rfl⟩ := Contract.procedure_of_getElem? hr hproc
    have hends := Call.exec_changedAt (c := ⟨⟨c.name, i, r.selector, function, c.fields, payload,
      r.body, !endsInReturn r.body⟩, received⟩) hnamed r.body (Frame.ofState state)
    rw [hexec] at hends
    rw [Option.bind_some, hr]
    exact hends

/-! ## Runs -/

/-- A message on its way to a contract. -/
structure Delivery where
  direction : Direction
  body : Cell
  isBounced : Bool

/-- The state after a delivery. One that ends early leaves the state as it was. -/
def next (sim : Simulator) (state : Record) (m : Delivery) : Record :=
  match sim.deliver m.direction state m.body m.isBounced with
  | .ok outcome => outcome.state
  | .error _ => state

/-- The state after some deliveries. -/
def run (sim : Simulator) (state : Record) : List Delivery → Record
  | [] => state
  | m :: rest => sim.run (sim.next state m) rest

/-- A delivery keeps a state conforming. -/
theorem conforms_next (h : ofContract c registry = .ok sim) (hfields : FieldsWellFormed c.fields)
    {state : Record} (hstate : state.Conforms c.fields) (m : Delivery) :
    (sim.next state m).Conforms c.fields := by
  unfold next
  cases hout : sim.deliver m.direction state m.body m.isBounced with
  | error e => exact hstate
  | ok outcome =>
    -- values of the right kinds are kept by checked bodies, and names by every body
    have hanswered := answered_of_deliver h hout
    have hchanged := hanswered.changedAt (hfields.field?_empty)
    exact Record.conforms_of_holds hfields.nodup (hchanged.names.trans hstate.names)
      (hanswered.holds hstate.holds)

/-- Deliveries keep a state conforming. -/
theorem conforms_run (h : ofContract c registry = .ok sim) (hfields : FieldsWellFormed c.fields)
    {state : Record} (hstate : state.Conforms c.fields) (ms : List Delivery) :
    (sim.run state ms).Conforms c.fields := by
  induction ms generalizing state with
  | nil => exact hstate
  | cons m rest ih => exact ih (conforms_next h hfields hstate m)

/-- In a program that was read, the state of a contract has exactly its fields, once each, in order and with
values of their kinds, after any deliveries from a zeroed state or one that was read. Whoever answers a
delivery sets all the fields that change, and nothing changes if nobody does. -/
theorem state_of_run {doc : Json} {program : Program} (hload : Program.ofJson doc = .ok program)
    (hc : c ∈ program.contracts) (h : ofContract c program.registry = .ok sim) {start : Record}
    (hstart : start = Record.zeroed c.fields ∨ ∃ j, Record.ofJson c.fields j = .ok start)
    (ms : List Delivery) :
    (sim.run start ms).Conforms c.fields ∧ ((sim.run start ms).entries.map (·.1)).Nodup ∧
      ∀ d state body isBounced outcome, sim.deliver d state body isBounced = .ok outcome →
        (outcome.receiver = none → outcome.state = state) ∧
          ∀ i, outcome.receiver = some i → ∃ r, c.receivers[i]? = some r ∧
            ∀ name, ⟨Place.self, some name⟩ ∉ bodyTargets r.body →
              outcome.state.get? name = state.get? name := by
  have hfields := ((Program.wellFormed_of_ofJson hload).contracts c hc).fields
  -- the first state has the fields of the contract, and every delivery keeps them
  have hconforms : (sim.run start ms).Conforms c.fields := by
    refine conforms_run h hfields ?_ ms
    rcases hstart with rfl | ⟨j, hj⟩
    · exact Record.conforms_zeroed c.fields
    · exact Record.conforms_of_ofJson hj
  refine ⟨hconforms, hconforms.names ▸ hfields.nodup, ?_⟩
  intro d state body isBounced outcome hout
  have hanswered := answered_of_deliver h hout
  have hchanged := hanswered.changedAt (hfields.field?_empty)
  cases hanswered with
  | nobody =>
    refine ⟨fun _ => rfl, ?_⟩
    intro i hi
    cases hi
  | @receiver i r _ _ _ _ _ hr _ _ _ _ =>
    constructor
    · intro hnone
      cases hnone
    · intro j hj
      obtain rfl := Option.some.inj hj
      rw [Option.bind_some, hr] at hchanged
      exact ⟨r, hr, hchanged.others⟩

/-- The counter after an empty message and one that it refuses. -/
theorem state_of_run_counter :
    ∃ sim, ofContract .counter .empty = .ok sim ∧
      (sim.run (Record.zeroed Contract.counter.fields)
        [⟨.internal, .empty, false⟩, ⟨.internal, .mk (List.replicate 40 true) [], false⟩]).Conforms
          Contract.counter.fields :=
  ⟨_, rfl, (state_of_run ofJson_counterDocument List.mem_cons_self rfl (.inl rfl) _).1⟩

end Simulator
end MessageRouter
