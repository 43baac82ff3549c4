import MessageRouter.Proofs.Body.Conformance
import MessageRouter.Proofs.Delivery.Invariant
import MessageRouter.Proofs.Record.Reading
/-!
# `Proofs.Record.RoundTrip` — states printed and read again

* `Value.isGiven_toJson`: a value is printed as one that may be given for a field of its kind.
* `Record.given?_toJson`: a printed state gives for each name what its entry is printed as.
* `Simulator.relay`: deliveries with the state printed and read again after each.
* `Record.ofJson_toJson`: a state comes back as it was, and relayed deliveries do what direct ones do.
-/
namespace MessageRouter

/-- A value is printed as one that may be given for a field of its kind. -/
theorem Value.isGiven_toJson {t : FieldType} {value : Value} (h : value.kind = Kind.ofType t) :
    IsGiven t value.toJson value := by
  cases value with
  | bool b =>
    obtain rfl := Kind.ofType_eq_bool_iff.mp h.symm
    exact .bool b
  | int i =>
    have ht := Kind.ofType_eq_int_iff.mp h.symm
    rw [toJson]
    split
    · next hfits =>
      have hi : -2 ^ 63 ≤ i.toInt ∧ i.toInt < 2 ^ 63 := by simpa [fitsInt64] using hfits
      exact .number ht hi rfl
    · exact .numeral ht (Text.isNumeral_toString i.toInt)
  | slice s => exact absurd h.symm (Kind.ofType_ne_slice t)

namespace Record

variable {fields : List Field} {r : Record}

/-- A printed state gives for each name what its entry is printed as. -/
theorem given?_toJson (hnames : (r.entries.map (·.1)).Nodup) (name : String) :
    given? name r.toJson = (r.get? name).map Value.toJson := by
  have hkeys : ((r.entries.map fun e => (e.1, e.2.toJson)).map (·.1)).Nodup := by
    rwa [List.map_map]
  rw [toJson, Json.ofMembers, given?, Json.member?_insertAll hkeys, Json.member?, List.find?_map,
    Option.map_map, get?, Option.map_map]
  exact Option.or_none

/-- A printed state has no other names than its entries. -/
theorem namesFields_toJson (h : r.Conforms fields) : NamesFields fields r.toJson := by
  intro m hm
  rcases Json.mem_of_mem_insertAll hm with hm | hm
  · obtain ⟨e, he, rfl⟩ := List.mem_map.mp hm
    have hname : e.1 ∈ fields.map (·.name) := h.names ▸ List.mem_map_of_mem he
    exact List.mem_map.mp hname
  · cases hm

/-- In a printed state every field has the value of its entry. -/
theorem has_toJson (hnames : (r.entries.map (·.1)).Nodup) {f : Field} {e : String × Value}
    (he : e ∈ r.entries) (hname : e.1 = f.name) (hkind : e.2.kind = Value.Kind.ofType f.type) :
    Has r.toJson f e.2 := by
  have hget : r.get? f.name = some e.2 := hname ▸ get?_of_mem hnames he
  unfold Has
  rw [given?_toJson hnames, hget]
  exact Value.isGiven_toJson hkind

/-- A state of fields of different names is read again as it was. -/
theorem Conforms.ofJson_eq (h : r.Conforms fields) (hnames : (fields.map (·.name)).Nodup) :
    ofJson fields r.toJson = .ok r := by
  have hnodup : (r.entries.map (·.1)).Nodup := h.names ▸ hnames
  refine ofJson_eq_ok_iff.mpr ⟨namesFields_toJson h, ?_⟩
  obtain ⟨hlength, hpairs⟩ := List.forall₂_iff_zip.mp h
  refine List.forall₂_iff_zip.mpr ⟨hlength, fun {f e} hfe => ?_⟩
  obtain ⟨hname, hkind⟩ := hpairs hfe
  exact ⟨hname, has_toJson hnodup (List.of_mem_zip hfe).2 hname hkind⟩

end Record

/-! ## Deliveries -/

namespace Simulator

variable {c : Contract} {registry : Registry} {sim : Simulator}

/-- The state after some deliveries, where it is printed after each and read again for the next. -/
def relay (sim : Simulator) (fields : List Field) (state : Record) :
    List Delivery → Except Record.ReadError Record
  | [] => .ok state
  | m :: rest => do
    let state ← Record.ofJson fields (sim.next state m).toJson
    sim.relay fields state rest

/-- Relayed deliveries do what direct ones do. -/
theorem relay_eq_run (h : ofContract c registry = .ok sim) (hfields : FieldsWellFormed c.fields)
    {state : Record} (hstate : state.Conforms c.fields) (ms : List Delivery) :
    sim.relay c.fields state ms = .ok (sim.run state ms) := by
  induction ms generalizing state with
  | nil => rfl
  | cons m rest ih =>
    have hnext := conforms_next h hfields hstate m
    rw [relay, hnext.ofJson_eq hfields.nodup]
    exact ih hnext

end Simulator

namespace Record

open Simulator (ofContract)

/-- A state of fields of different names, with a truth value for each `bool` and any integer of 128 bits for each other
field, is printed as JSON that is read as this state. So it makes no difference to the deliveries to a contract of a
program whether the state is kept between them or printed after each and read again. -/
theorem ofJson_toJson {fields : List Field} (hnames : (fields.map (·.name)).Nodup) {r : Record}
    (h : r.Conforms fields) :
    ofJson fields r.toJson = .ok r ∧
      ∀ doc program c sim, Program.ofJson doc = .ok program → c ∈ program.contracts →
        c.fields = fields → ofContract c program.registry = .ok sim →
          ∀ ms, sim.relay fields r ms = .ok (sim.run r ms) := by
  refine ⟨h.ofJson_eq hnames, ?_⟩
  rintro doc program c sim hload hc rfl hsim ms
  exact Simulator.relay_eq_run hsim ((Program.wellFormed_of_ofJson hload).contracts c hc).fields h ms

/-- The counter at the least integer of 128 bits, which is printed as a numeral, goes on counting from there. -/
theorem ofJson_toJson_counter :
    ∃ sim, ofContract .counter .empty = .ok sim ∧
      ofJson Contract.counter.fields (toJson ⟨[("n", .int ⟨BitVec.intMin 128⟩)]⟩) =
        .ok ⟨[("n", .int ⟨BitVec.intMin 128⟩)]⟩ ∧
      sim.relay Contract.counter.fields ⟨[("n", .int ⟨BitVec.intMin 128⟩)]⟩
          [⟨.internal, .empty, false⟩, ⟨.internal, .empty, false⟩] =
        .ok (sim.run ⟨[("n", .int ⟨BitVec.intMin 128⟩)]⟩
          [⟨.internal, .empty, false⟩, ⟨.internal, .empty, false⟩]) := by
  have hconforms : Conforms Contract.counter.fields ⟨[("n", .int ⟨BitVec.intMin 128⟩)]⟩ :=
    .cons ⟨rfl, rfl⟩ .nil
  obtain ⟨hread, hrelay⟩ := ofJson_toJson (by decide) hconforms
  exact ⟨_, rfl, hread, hrelay _ _ _ _ ofJson_counterDocument List.mem_cons_self rfl rfl _⟩

end Record
end MessageRouter
