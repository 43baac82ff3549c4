import MessageRouter.Proofs.Document.WellFormed
import MessageRouter.Proofs.Plan.Slots
/-!
# `Proofs.Document.Soundness` — what was checked of a program that was read

* `Selector.Takes`, `Selector.Clash`: what a selector takes for itself, and two that take the same.
* `Contract.IsSound`, `Program.IsSound`: widths in range, allowed names in all bodies, a layout for each message that
  is received, and no clashes.
* `Program.isSound_of_ofJson`: a program that is read from a document is sound.
-/
namespace MessageRouter

/-! ## Selectors -/

/-- What a selector takes for itself among the messages of its direction. A comment takes nothing, as there may be two
receivers of one comment. -/
inductive Selector.Takes (registry : Registry) : Selector → Slot → Prop where
  | empty (d : Direction) : Takes registry (.empty d) .empty
  | anyComment (d : Direction) (binding : String) : Takes registry (.anyComment d binding) .anyComment
  | any (d : Direction) (binding : String) : Takes registry (.any d binding) .any
  | anyBounced (binding : String) : Takes registry (.anyBounced binding) .anyBounced
  | message {name : String} {l : Layout} (d : Direction) (binding : String)
      (hl : registry.layout name = .ok l) :
      Takes registry (.message d name binding) (.opcode false l.header.value)
  | bounced {name : String} {l : Layout} (binding : String) (isPartial : Bool)
      (hl : registry.layout name = .ok l) :
      Takes registry (.bounced name binding isPartial) (.opcode true l.header.value)

/-- Two selectors of one direction that take the same. -/
def Selector.Clash (registry : Registry) (s t : Selector) : Prop :=
  s.direction = t.direction ∧ ∃ slot, s.Takes registry slot ∧ t.Takes registry slot

namespace Selector

variable {registry : Registry} {s : Selector}

/-- A selector takes the slot it has. -/
theorem takes_iff {slot : Slot} : s.Takes registry slot ↔ s.slot registry = .ok (some slot) := by
  constructor
  · intro h
    cases h with
    | empty | anyComment | any | anyBounced => rfl
    | message d binding hl | bounced binding isPartial hl =>
      rw [Selector.slot, hl]
      rfl
  · intro h
    cases s with
    | comment d text => cases h
    | empty d =>
      cases h
      exact .empty d
    | anyComment d binding =>
      cases h
      exact .anyComment d binding
    | any d binding =>
      cases h
      exact .any d binding
    | anyBounced binding =>
      cases h
      exact .anyBounced binding
    | message d name binding =>
      obtain ⟨l, hl, hslot⟩ := Fallible.map_eq_ok_iff.mp h
      cases hslot
      exact .message d binding hl
    | bounced name binding isPartial =>
      obtain ⟨l, hl, hslot⟩ := Fallible.map_eq_ok_iff.mp h
      cases hslot
      exact .bounced binding isPartial hl

/-- A selector has a slot or none exactly if the message it is for has a layout. -/
theorem exists_slot_iff :
    (∃ taking, s.slot registry = .ok taking) ↔
      ∀ name, s.message? = some name → ∃ l, registry.layout name = .ok l := by
  have hlayout {name : String} {f : Layout → Option Slot} :
      (∃ taking, (registry.layout name).map f = .ok taking) ↔ ∃ l, registry.layout name = .ok l := by
    constructor
    · rintro ⟨_, h⟩
      obtain ⟨l, hl, -⟩ := Fallible.map_eq_ok_iff.mp h
      exact ⟨l, hl⟩
    · rintro ⟨l, hl⟩
      exact ⟨_, Fallible.map_eq_ok_iff.mpr ⟨l, hl, rfl⟩⟩
  cases s with
  | message d name binding | bounced name binding isPartial =>
    refine hlayout.trans ⟨?_, fun h => h name rfl⟩
    rintro hl _ ⟨⟩
    exact hl
  | empty | comment | anyComment | any | anyBounced => exact iff_of_true ⟨_, rfl⟩ nofun

end Selector

/-! ## Sound programs -/

/-- Widths in range, places of allowed names, a layout for every message that is received, and no two receivers that
clash. -/
structure Contract.IsSound (registry : Registry) (c : Contract) : Prop where
  widths : ∀ f ∈ c.fields, f.type.IsInRange
  places : ∀ r ∈ c.receivers, BodyHasNamedPlaces r.body
  layouts : ∀ r ∈ c.receivers, ∀ name, r.selector.message? = some name → ∃ l, registry.layout name = .ok l
  apart : ∀ (i j : Nat) (r r' : Receiver), c.receivers[i]? = some r → c.receivers[j]? = some r' →
    r.selector.Clash registry r'.selector → i = j

/-- Allowed and different names, widths in range, and such contracts. -/
structure Program.IsSound (p : Program) : Prop where
  wellFormed : p.WellFormed
  widths : ∀ m ∈ p.registry.messages, ∀ f ∈ m.fields, f.type.IsInRange
  contracts : ∀ c ∈ p.contracts, c.IsSound p.registry

namespace Contract

variable {c : Contract} {registry : Registry}

/-- A contract whose receivers were checked has layouts and no clashes. -/
theorem isSound_of_checkSlots (hwidths : ∀ f ∈ c.fields, f.type.IsInRange)
    (hplaces : ∀ r ∈ c.receivers, BodyHasNamedPlaces r.body)
    (h : ∀ d, c.checkSlots registry d = .ok ()) : c.IsSound registry where
  widths := hwidths
  places := hplaces
  layouts := by
    intro r hr
    obtain ⟨i, hi⟩ := List.mem_iff_getElem?.mp hr
    exact Selector.exists_slot_iff.mp (exists_slot_of_checkSlots (h _) _ (mem_receiversFor hi rfl))
  apart := by
    -- both stand among the receivers of one direction, of which one takes a slot
    rintro i j r r' hi hj ⟨hdirection, slot, hslot, hslot'⟩
    have hsame := eq_of_slot_eq (h _) (mem_receiversFor hi hdirection) (mem_receiversFor hj rfl)
      (Selector.takes_iff.mp hslot) (Selector.takes_iff.mp hslot')
    exact congrArg Prod.snd hsame

/-- The check passes the receivers of a sound contract. -/
theorem IsSound.checkSlots_eq_ok (h : c.IsSound registry) (d : Direction) :
    c.checkSlots registry d = .ok () := by
  apply Contract.checkSlots_eq_ok
  · intro r hr
    obtain ⟨hi, -⟩ := getElem?_of_mem_receiversFor hr
    exact Selector.exists_slot_iff.mpr (h.layouts _ (List.mem_of_getElem? hi))
  · -- receivers of one slot and of one direction clash, so they are the same
    intro a ha b hb slot hslot hslot'
    obtain ⟨hi, hdirection⟩ := getElem?_of_mem_receiversFor ha
    obtain ⟨hj, hdirection'⟩ := getElem?_of_mem_receiversFor hb
    have hindex : a.2 = b.2 := h.apart _ _ _ _ hi hj ⟨hdirection.trans hdirection'.symm, slot,
      Selector.takes_iff.mpr hslot, Selector.takes_iff.mpr hslot'⟩
    rw [hindex, hj] at hi
    exact Prod.ext (Option.some.inj hi).symm hindex

end Contract

open Document in
/-- A program that is read from a document is sound. -/
theorem Program.isSound_of_ofJson {doc : Json} {p : Program} (h : Program.ofJson doc = .ok p) :
    p.IsSound := by
  obtain ⟨ms, messages, contracts, -, -, -, hmessages, -, hcontracts⟩ := exists_of_ofJson h
  constructor
  · exact wellFormed_of_ofJson h
  · refine Fallible.foldlM_induction
      (motive := fun registry : Registry => ∀ m ∈ registry.messages, ∀ f ∈ m.fields, f.type.IsInRange)
      hmessages nofun ?_
    rintro before ⟨v, pointer⟩ after hbefore hstep
    obtain ⟨m, hm, -, rfl⟩ := exists_of_registerMessage hstep
    exact forall_mem_append_singleton hbefore (of_readMessage hm).2.2
  · refine Fallible.foldlM_induction (motive := fun cs => ∀ c ∈ cs, c.IsSound p.registry) hcontracts
      nofun ?_
    rintro before ⟨v, pointer⟩ after hbefore hstep
    obtain ⟨c, hc, -, hslots, rfl⟩ := exists_of_addContract hstep
    obtain ⟨-, hwidths, hplaces⟩ := of_readContract hc
    refine forall_mem_append_singleton hbefore (Contract.isSound_of_checkSlots hwidths hplaces ?_)
    exact fun d => Fallible.forM_eq_ok_iff.mp hslots d (Direction.mem_all d)

end MessageRouter
