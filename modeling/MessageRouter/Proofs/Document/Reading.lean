import MessageRouter.Document.Reader
import MessageRouter.Proofs.Fallible
/-!
# `Proofs.Document.Reading` — what was read for a program, part by part

* `Document.exists_of_readField`, `Document.exists_of_readMessage`, `Document.exists_of_readReceiver`,
  `Document.exists_of_readContract`: what each member of an object was read as.
* `Document.IsSelector`, `Document.exists_of_readSelector`: the same for selectors, one case for each kind.
* `Document.exists_of_registerMessage`, `Document.exists_of_addContract`: one more message or contract.
* `Program.exists_of_ofJson`: what was read for a program, step by step.
-/
namespace MessageRouter
namespace Document

variable {pointer : Pointer} {v : Json} {ms : Members}

/-! ## Values -/

theorem placed_eq_ok_iff {ε α : Type} {wrap : ε → Error} {result : Except ε α} {a : α} :
    placed pointer wrap result = .ok a ↔ result = .ok a := by
  cases result with
  | ok b => exact ⟨fun h => congrArg Except.ok (Except.ok.inj h),
      fun h => congrArg Except.ok (Except.ok.inj h)⟩
  | error e => exact ⟨fun h => (nomatch h), fun h => (nomatch h)⟩

/-- What begins with the members of a value is about an object. -/
theorem exists_of_members {α : Type} {f : Members → Except Fault α} {a : α}
    (h : (members pointer v >>= f) = .ok a) : ∃ ms, v = .object ms ∧ f ms = .ok a := by
  obtain ⟨ms, hms, h⟩ := Fallible.bind_eq_ok_iff.mp h
  unfold members at hms
  split at hms
  · obtain rfl := Except.ok.inj hms
    exact ⟨_, rfl, h⟩
  · cases hms

theorem member_of_requiredText {key s : String} (h : requiredText pointer ms key = .ok s) :
    Json.member? key ms = some (.string s) := by
  unfold requiredText at h
  split at h
  · cases h
  · next hs => exact Except.ok.inj h ▸ hs
  · cases h

/-! ## Fields and messages -/

/-- A field is read from its name, which no field before it has, and from its type. -/
theorem exists_of_readField {before : List Field} {f : Field} (h : readField before v pointer = .ok f) :
    ∃ ms typeName, v = .object ms ∧ requiredName .localName pointer ms "name" = .ok f.name ∧
      f.name ∉ before.map (·.name) ∧ requiredText pointer ms "ty" = .ok typeName ∧
      FieldType.ofName? typeName = some f.type := by
  replace h := exists_of_members h
  obtain ⟨ms, rfl, h⟩ := h
  obtain ⟨name, hname, h⟩ := Fallible.bind_eq_ok_iff.mp h
  -- a field of a known name is refused
  by_cases hany : before.any (·.name == name) = true
  · simp only [if_pos hany] at h
    exact nomatch h
  · simp only [if_neg hany] at h
    obtain ⟨typeName, htext, h⟩ := Fallible.bind_eq_ok_iff.mp h
    split at h
    · next type htype =>
      obtain rfl := Except.ok.inj h
      exact ⟨ms, typeName, rfl, hname, by simpa using hany, htext, htype⟩
    · exact nomatch h

/-- A message is read from its name, its header and its fields. -/
theorem exists_of_readMessage {m : Message} (h : readMessage v pointer = .ok m) :
    ∃ ms, v = .object ms ∧ requiredName .typeName pointer ms "name" = .ok m.name ∧
      readHeader pointer ms = .ok m.header ∧ readFields pointer ms = .ok m.fields := by
  replace h := exists_of_members h
  obtain ⟨ms, rfl, h⟩ := h
  obtain ⟨name, hname, h⟩ := Fallible.bind_eq_ok_iff.mp h
  obtain ⟨header, hheader, h⟩ := Fallible.bind_eq_ok_iff.mp h
  obtain ⟨fields, hfields, h⟩ := Fallible.bind_eq_ok_iff.mp h
  obtain rfl := Except.ok.inj h
  exact ⟨ms, rfl, hname, hheader, hfields⟩

/-- A message that is registered has a name of its own and goes to the end. -/
theorem exists_of_registerMessage {registry registry' : Registry} {v : Json}
    (h : registerMessage registry v pointer = .ok registry') :
    ∃ m, readMessage v pointer = .ok m ∧ m.name ∉ registry.messages.map (·.name) ∧
      registry' = ⟨registry.messages ++ [m]⟩ := by
  obtain ⟨m, hm, h⟩ := Fallible.bind_eq_ok_iff.mp h
  refine ⟨m, hm, ?_⟩
  unfold Registry.insert? at h
  -- a message of a known name is refused
  cases hfind : registry.find? m.name with
  | some other =>
    simp only [hfind, Option.isSome_some, if_true] at h
    exact nomatch h
  | none =>
    simp only [hfind, Option.isSome_none, Bool.false_eq_true, if_false] at h
    obtain rfl := Except.ok.inj h
    refine ⟨?_, rfl⟩
    intro hmem
    obtain ⟨m', hm', hsame⟩ := List.mem_map.mp hmem
    exact List.find?_eq_none.mp hfind m' hm' (by simpa using hsame)

/-! ## Receivers -/

/-- What a selector of some kind is read from. -/
inductive IsSelector (pointer : Pointer) (ms : Members) : SelectorKind → Selector → Prop where
  | message {d name binding} (hname : requiredText pointer ms "message" = .ok name)
      (hbinding : readBinding pointer ms = .ok binding) :
      IsSelector pointer ms (.message d) (.message d name binding)
  | empty {d} : IsSelector pointer ms (.empty d) (.empty d)
  | comment {d text} (htext : requiredText pointer ms "text" = .ok text) :
      IsSelector pointer ms (.comment d) (.comment d text)
  | anyComment {d binding} (hbinding : readBinding pointer ms = .ok binding) :
      IsSelector pointer ms (.anyComment d) (.anyComment d binding)
  | any {d binding} (hbinding : readBinding pointer ms = .ok binding) :
      IsSelector pointer ms (.any d) (.any d binding)
  | bounced {name binding isPartial} (hname : requiredText pointer ms "message" = .ok name)
      (hbinding : readBinding pointer ms = .ok binding) (hpartial : readPartial pointer ms = .ok isPartial) :
      IsSelector pointer ms .bounced (.bounced name binding isPartial)
  | anyBounced {binding} (hbinding : readBinding pointer ms = .ok binding) :
      IsSelector pointer ms .anyBounced (.anyBounced binding)

/-- A selector is read from what its kind asks for. -/
theorem exists_of_readSelector {s : Selector} (h : readSelector v pointer = .ok s) :
    ∃ ms name kind, v = .object ms ∧ requiredText pointer ms "kind" = .ok name ∧
      SelectorKind.ofName? name = some kind ∧ IsSelector pointer ms kind s := by
  replace h := exists_of_members h
  obtain ⟨ms, rfl, h⟩ := h
  obtain ⟨name, hname, h⟩ := Fallible.bind_eq_ok_iff.mp h
  cases hkind : SelectorKind.ofName? name with
  | none =>
    simp only [hkind] at h
    cases h
  | some kind =>
    simp only [hkind] at h
    refine ⟨ms, name, kind, rfl, hname, hkind, ?_⟩
    cases kind with
    | message d =>
      obtain ⟨message, hmessage, h⟩ := Fallible.bind_eq_ok_iff.mp h
      obtain ⟨binding, hbinding, h⟩ := Fallible.bind_eq_ok_iff.mp h
      exact Except.ok.inj h ▸ .message hmessage hbinding
    | empty d => exact Except.ok.inj h ▸ .empty
    | comment d =>
      obtain ⟨text, htext, h⟩ := Fallible.bind_eq_ok_iff.mp h
      exact Except.ok.inj h ▸ .comment htext
    | anyComment d =>
      obtain ⟨binding, hbinding, h⟩ := Fallible.bind_eq_ok_iff.mp h
      exact Except.ok.inj h ▸ .anyComment hbinding
    | any d =>
      obtain ⟨binding, hbinding, h⟩ := Fallible.bind_eq_ok_iff.mp h
      exact Except.ok.inj h ▸ .any hbinding
    | bounced =>
      obtain ⟨message, hmessage, h⟩ := Fallible.bind_eq_ok_iff.mp h
      obtain ⟨binding, hbinding, h⟩ := Fallible.bind_eq_ok_iff.mp h
      obtain ⟨isPartial, hpartial, h⟩ := Fallible.bind_eq_ok_iff.mp h
      exact Except.ok.inj h ▸ .bounced hmessage hbinding hpartial
    | anyBounced =>
      obtain ⟨binding, hbinding, h⟩ := Fallible.bind_eq_ok_iff.mp h
      exact Except.ok.inj h ▸ .anyBounced hbinding

/-- A receiver is read from where it was declared, its selector and its body. -/
theorem exists_of_readReceiver {r : Receiver} (h : readReceiver v pointer = .ok r) :
    ∃ ms s, v = .object ms ∧ readLoc pointer ms = .ok r.loc ∧ Json.member? "selector" ms = some s ∧
      readSelector s (.key pointer "selector") = .ok r.selector ∧ readReceiverBody pointer ms = .ok r.body := by
  replace h := exists_of_members h
  obtain ⟨ms, rfl, h⟩ := h
  obtain ⟨loc, hloc, h⟩ := Fallible.bind_eq_ok_iff.mp h
  split at h
  · exact nomatch h
  · next s hs =>
    obtain ⟨selector, hselector, h⟩ := Fallible.bind_eq_ok_iff.mp h
    obtain ⟨body, hbody, h⟩ := Fallible.bind_eq_ok_iff.mp h
    obtain rfl := Except.ok.inj h
    exact ⟨ms, s, rfl, hloc, hs, hselector, hbody⟩

/-! ## Contracts -/

/-- A contract is read from its name, its fields and its receivers. -/
theorem exists_of_readContract {c : Contract} (h : readContract v pointer = .ok c) :
    ∃ ms items, v = .object ms ∧ requiredName .typeName pointer ms "name" = .ok c.name ∧
      readFields pointer ms = .ok c.fields ∧ pointedElements pointer ms "receivers" = .ok items ∧
      (items.mapM fun (v, p) => readReceiver v p) = .ok c.receivers := by
  replace h := exists_of_members h
  obtain ⟨ms, rfl, h⟩ := h
  obtain ⟨name, hname, h⟩ := Fallible.bind_eq_ok_iff.mp h
  obtain ⟨fields, hfields, h⟩ := Fallible.bind_eq_ok_iff.mp h
  obtain ⟨items, hitems, h⟩ := Fallible.bind_eq_ok_iff.mp h
  obtain ⟨receivers, hreceivers, h⟩ := Fallible.bind_eq_ok_iff.mp h
  obtain rfl := Except.ok.inj h
  exact ⟨ms, items, rfl, hname, hfields, hitems, hreceivers⟩

/-- A contract of a new name whose receivers do not clash is added at the end. -/
theorem exists_of_addContract {registry : Registry} {before after : List Contract} {v : Json}
    (h : addContract registry before v pointer = .ok after) :
    ∃ c, readContract v pointer = .ok c ∧ c.name ∉ before.map (·.name) ∧
      Direction.all.forM (c.checkSlots registry) = .ok () ∧ after = before ++ [c] := by
  obtain ⟨c, hc, h⟩ := Fallible.bind_eq_ok_iff.mp h
  refine ⟨c, hc, ?_⟩
  by_cases hany : before.any (·.name == c.name) = true
  · simp only [if_pos hany] at h
    exact nomatch h
  · simp only [if_neg hany] at h
    obtain ⟨_, hslots, h⟩ := Fallible.bind_eq_ok_iff.mp h
    exact ⟨by simpa using hany, hslots, (Except.ok.inj h).symm⟩

end Document

open Document in
/-- The messages of a program are registered one after the other, and then its contracts are added. -/
theorem Program.exists_of_ofJson {doc : Json} {p : Program} (h : Program.ofJson doc = .ok p) :
    ∃ ms messages contracts, doc = .object ms ∧
      requiredText .root ms "schema_version" = .ok documentSchema ∧
      pointedElements .root ms "messages" = .ok messages ∧
      messages.foldlM (fun registry (v, pointer) => registerMessage registry v pointer) .empty =
        .ok p.registry ∧
      pointedElements .root ms "contracts" = .ok contracts ∧
      contracts.foldlM (fun before (v, pointer) => addContract p.registry before v pointer) [] =
        .ok p.contracts := by
  replace h := exists_of_members h
  obtain ⟨ms, rfl, h⟩ := h
  obtain ⟨version, hversion, h⟩ := Fallible.bind_eq_ok_iff.mp h
  by_cases hschema : version ≠ documentSchema
  · simp only [if_pos hschema] at h
    exact nomatch h
  simp only [if_neg hschema] at h
  obtain rfl := not_not.mp hschema
  obtain ⟨messages, hmessages, h⟩ := Fallible.bind_eq_ok_iff.mp h
  obtain ⟨registry, hregistry, h⟩ := Fallible.bind_eq_ok_iff.mp h
  obtain ⟨contracts, hcontracts, h⟩ := Fallible.bind_eq_ok_iff.mp h
  obtain ⟨read, hread, h⟩ := Fallible.bind_eq_ok_iff.mp h
  obtain rfl := Except.ok.inj h
  exact ⟨ms, messages, contracts, rfl, hversion, hmessages, hregistry, hcontracts, hread⟩

end MessageRouter
