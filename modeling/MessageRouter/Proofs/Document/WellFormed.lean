import Mathlib.Data.List.Nodup
import MessageRouter.Proofs.Body.Grammar
import MessageRouter.Proofs.Document.Reading
/-!
# `Proofs.Document.WellFormed` — the names of a program that was read

* `FieldsWellFormed`, `Registry.WellFormed`, `Contract.WellFormed`, `Program.WellFormed`: allowed names, and
  no two fields, messages or contracts of one name.
* `Program.wellFormed_of_ofJson`: a program that is read from a document is well formed.
-/
namespace MessageRouter

open Identifier (IsValid)

/-! ## Well-formed programs -/

/-- Fields of different and allowed names. -/
structure FieldsWellFormed (fields : List Field) : Prop where
  valid : ∀ f ∈ fields, IsValid .localName f.name
  nodup : (fields.map (·.name)).Nodup

/-- Messages of different and allowed names, with such fields. -/
structure Registry.WellFormed (r : Registry) : Prop where
  valid : ∀ m ∈ r.messages, IsValid .typeName m.name
  nodup : (r.messages.map (·.name)).Nodup
  fields : ∀ m ∈ r.messages, FieldsWellFormed m.fields

/-- The name of a payload is allowed and is not that of the state. -/
def Selector.IsNamed : Selector → Prop
  | .message _ _ binding | .anyComment _ binding | .any _ binding | .bounced _ binding _
  | .anyBounced binding => IsValid .localName binding ∧ binding ≠ Place.self
  | .empty _ | .comment .. => True

/-- A contract and its receivers have allowed names. -/
structure Contract.WellFormed (c : Contract) : Prop where
  name : IsValid .typeName c.name
  fields : FieldsWellFormed c.fields
  selectors : ∀ r ∈ c.receivers, r.selector.IsNamed
  bodies : ∀ r ∈ c.receivers, BodyIsNamed r.body

/-- A program of such messages and of such contracts, which have different names. -/
structure Program.WellFormed (p : Program) : Prop where
  registry : p.registry.WellFormed
  contracts : ∀ c ∈ p.contracts, c.WellFormed
  nodup : (p.contracts.map (·.name)).Nodup

namespace Document

/-! ## Names and fields -/

variable {pointer : Pointer}

/-- What holds of all before and of one more holds of all with it. -/
theorem forall_mem_append_singleton {α : Type} {P : α → Prop} {xs : List α} {x : α}
    (hxs : ∀ y ∈ xs, P y) (hx : P x) : ∀ y ∈ xs ++ [x], P y :=
  List.forall_mem_append.mpr ⟨hxs, List.forall_mem_singleton.mpr hx⟩

/-- One more of a new name leaves all names different. -/
theorem nodup_map_append_singleton {α : Type} {name : α → String} {xs : List α} {x : α}
    (hxs : (xs.map name).Nodup) (hx : name x ∉ xs.map name) : ((xs ++ [x]).map name).Nodup := by
  rw [List.map_append, List.map_singleton]
  exact hxs.append (List.nodup_singleton _) (List.disjoint_singleton.mpr hx)

/-- A name that has to be allowed is. -/
theorem isValid_of_requiredName {role : Identifier.Role} {ms : Members} {key name : String}
    (h : requiredName role pointer ms key = .ok name) : IsValid role name := by
  obtain ⟨name', -, h⟩ := Fallible.bind_eq_ok_iff.mp h
  obtain ⟨_, hcheck, h⟩ := Fallible.bind_eq_ok_iff.mp h
  obtain rfl := Except.ok.inj h
  exact Identifier.check_eq_ok_iff.mp (placed_eq_ok_iff.mp hcheck)

/-- A field that is read has a name of its own, which is allowed, and a width in range. -/
theorem of_readField {before : List Field} {v : Json} {f : Field}
    (h : readField before v pointer = .ok f) :
    IsValid .localName f.name ∧ f.name ∉ before.map (·.name) ∧ f.type.IsInRange := by
  obtain ⟨ms, typeName, -, hname, hnew, -, htype⟩ := exists_of_readField h
  exact ⟨isValid_of_requiredName hname, hnew, FieldType.isInRange_of_ofName? htype⟩

/-- Fields that are read have different and allowed names and widths in range. -/
theorem of_readFields {ms : Members} {fields : List Field}
    (h : readFields pointer ms = .ok fields) :
    FieldsWellFormed fields ∧ ∀ f ∈ fields, f.type.IsInRange := by
  obtain ⟨items, -, h⟩ := Fallible.bind_eq_ok_iff.mp h
  refine Fallible.foldlM_induction
    (motive := fun fs => FieldsWellFormed fs ∧ ∀ f ∈ fs, f.type.IsInRange) h
    ⟨⟨nofun, List.nodup_nil⟩, nofun⟩ ?_
  rintro before ⟨v, p⟩ fields ⟨hbefore, hwidths⟩ hstep
  obtain ⟨f, hf, hstep⟩ := Fallible.bind_eq_ok_iff.mp hstep
  obtain rfl := Except.ok.inj hstep
  obtain ⟨hvalid, hnew, hwidth⟩ := of_readField hf
  refine ⟨⟨forall_mem_append_singleton hbefore.valid hvalid, ?_⟩,
    forall_mem_append_singleton hwidths hwidth⟩
  exact nodup_map_append_singleton hbefore.nodup hnew

/-! ## Messages -/

theorem of_readMessage {v : Json} {m : Message} (h : readMessage v pointer = .ok m) :
    IsValid .typeName m.name ∧ FieldsWellFormed m.fields ∧ ∀ f ∈ m.fields, f.type.IsInRange := by
  obtain ⟨ms, -, hname, -, hfields⟩ := exists_of_readMessage h
  exact ⟨isValid_of_requiredName hname, of_readFields hfields⟩

theorem wellFormed_of_registerMessage {registry registry' : Registry} {v : Json}
    (hregistry : registry.WellFormed) (h : registerMessage registry v pointer = .ok registry') :
    registry'.WellFormed := by
  obtain ⟨m, hm, hnew, rfl⟩ := exists_of_registerMessage h
  obtain ⟨hname, hfields, -⟩ := of_readMessage hm
  constructor
  · exact forall_mem_append_singleton hregistry.valid hname
  · exact nodup_map_append_singleton hregistry.nodup hnew
  · exact forall_mem_append_singleton hregistry.fields hfields

/-! ## Contracts -/

theorem isNamed_of_readBinding {ms : Members} {name : String}
    (h : readBinding pointer ms = .ok name) : IsValid .localName name ∧ name ≠ Place.self := by
  obtain ⟨name', hname, h⟩ := Fallible.bind_eq_ok_iff.mp h
  by_cases hself : name' = Place.self
  · simp only [if_pos hself] at h
    exact nomatch h
  · simp only [if_neg hself] at h
    obtain rfl := Except.ok.inj h
    exact ⟨isValid_of_requiredName hname, hself⟩

theorem isNamed_of_readSelector {v : Json} {s : Selector} (h : readSelector v pointer = .ok s) :
    s.IsNamed := by
  obtain ⟨ms, name, kind, -, -, -, h⟩ := exists_of_readSelector h
  cases h with
  | message _ hbinding | anyComment hbinding | any hbinding | bounced _ hbinding | anyBounced hbinding =>
    exact isNamed_of_readBinding hbinding
  | empty | comment => trivial

theorem names_of_readReceiverBody {ms : Members} {body : List Stmt}
    (h : readReceiverBody pointer ms = .ok body) : BodyIsNamed body ∧ BodyHasNamedPlaces body := by
  obtain ⟨e, -, h⟩ := Fallible.bind_eq_ok_iff.mp h
  split at h
  · obtain ⟨hreadable, -⟩ := readBody_eq_ok_iff.mp (placed_eq_ok_iff.mp h)
    exact ⟨hreadable.locals, hreadable.places⟩
  · cases h

theorem names_of_readReceiver {v : Json} {r : Receiver} (h : readReceiver v pointer = .ok r) :
    r.selector.IsNamed ∧ BodyIsNamed r.body ∧ BodyHasNamedPlaces r.body := by
  obtain ⟨ms, s, -, -, -, hselector, hbody⟩ := exists_of_readReceiver h
  exact ⟨isNamed_of_readSelector hselector, names_of_readReceiverBody hbody⟩

/-- A contract that is read has allowed names, in its bodies too, and widths in range. -/
theorem of_readContract {v : Json} {c : Contract} (h : readContract v pointer = .ok c) :
    c.WellFormed ∧ (∀ f ∈ c.fields, f.type.IsInRange) ∧
      ∀ r ∈ c.receivers, BodyHasNamedPlaces r.body := by
  obtain ⟨ms, items, -, hname, hfields, -, hreceivers⟩ := exists_of_readContract h
  have hread : ∀ r ∈ c.receivers,
      r.selector.IsNamed ∧ BodyIsNamed r.body ∧ BodyHasNamedPlaces r.body := by
    intro r hr
    obtain ⟨⟨v, p⟩, -, hv⟩ := Fallible.exists_of_mem_mapM hreceivers hr
    exact names_of_readReceiver hv
  obtain ⟨hwellFormed, hwidths⟩ := of_readFields hfields
  exact ⟨⟨isValid_of_requiredName hname, hwellFormed, fun r hr => (hread r hr).1,
    fun r hr => (hread r hr).2.1⟩, hwidths, fun r hr => (hread r hr).2.2⟩

theorem wellFormed_of_addContract {registry : Registry} {before after : List Contract} {v : Json}
    (hbefore : ∀ c ∈ before, c.WellFormed) (h : addContract registry before v pointer = .ok after) :
    ∀ c ∈ after, c.WellFormed := by
  obtain ⟨c, hc, -, -, rfl⟩ := exists_of_addContract h
  exact forall_mem_append_singleton hbefore (of_readContract hc).1

theorem nodup_of_addContract {registry : Registry} {before after : List Contract} {v : Json}
    (hbefore : (before.map (·.name)).Nodup) (h : addContract registry before v pointer = .ok after) :
    (after.map (·.name)).Nodup := by
  obtain ⟨c, -, hnew, -, rfl⟩ := exists_of_addContract h
  exact nodup_map_append_singleton hbefore hnew

end Document

open Document in
/-- A program that is read from a document is well formed. -/
theorem Program.wellFormed_of_ofJson {doc : Json} {p : Program} (h : Program.ofJson doc = .ok p) :
    p.WellFormed := by
  obtain ⟨ms, messages, contracts, -, -, -, hmessages, -, hcontracts⟩ := exists_of_ofJson h
  constructor
  · refine Fallible.foldlM_induction hmessages ⟨nofun, List.nodup_nil, nofun⟩ ?_
    rintro before ⟨v, pointer⟩ after hbefore hstep
    exact wellFormed_of_registerMessage hbefore hstep
  · refine Fallible.foldlM_induction (motive := fun cs => ∀ c ∈ cs, c.WellFormed) hcontracts nofun ?_
    rintro before ⟨v, pointer⟩ after hbefore hstep
    exact wellFormed_of_addContract hbefore hstep
  · refine Fallible.foldlM_induction (motive := fun cs => (cs.map (·.name)).Nodup) hcontracts
      List.nodup_nil ?_
    rintro before ⟨v, pointer⟩ after hbefore hstep
    exact nodup_of_addContract hbefore hstep

/-! ## A program -/

/-- Counts empty messages and refuses all others. -/
def Contract.counter : Contract where
  name := "Counter"
  fields := [⟨"n", .int 64⟩]
  receivers :=
    [⟨.empty .internal,
        [.set ⟨"self", some "n"⟩ (.binary .add (.place ⟨"self", some "n"⟩) (.int 1))], none⟩,
      ⟨.any .internal "body", [.throw 100], none⟩]

/-- A document of the counter. -/
def counterDocument : Json :=
  .object [("schema_version", .string documentSchema),
    ("contracts", .array [.object [("name", .string "Counter"),
      ("fields", .array [.object [("name", .string "n"), ("ty", .string "int64")]]),
      ("receivers", .array [
        .object [("selector", .object [("kind", .string "internal-empty")]),
          ("body", .array [.array [.string "set", .string "self.n",
            .array [.string "+", .string "self.n", .int 1]]])],
        .object [("selector",
            .object [("kind", .string "internal-fallback"), ("binding", .string "body")]),
          ("body", .array [.array [.string "throw", .int 100]])]])]])]

/-- The counter is read from its document. -/
theorem ofJson_counterDocument :
    Program.ofJson counterDocument = .ok ⟨.empty, [.counter]⟩ := by
  rfl

end MessageRouter
