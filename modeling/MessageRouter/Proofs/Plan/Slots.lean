import Mathlib.Data.List.Pairwise
import MessageRouter.Contract.Slot
import MessageRouter.Proofs.Fallible
/-!
# `Proofs.Plan.Slots` — no two receivers of a direction take one slot

* `Contract.exists_checkSlotsFrom_rest`: a receiver that passes the check takes a free slot.
* `Contract.exists_slot_of_checkSlots`: the check passes only receivers that take a slot or none.
* `Contract.pairwise_of_checkSlots`: it passes only receivers of different slots.
* `Contract.checkSlots_eq_ok`: it passes all receivers of which one takes each slot.
* `Contract.eq_of_slot_eq`: of the receivers that were checked, one takes a slot.
* `Contract.receiversFor_pairwise`: receivers stand in the order of their indices.
-/
namespace MessageRouter
namespace Contract

variable {c : Contract} {registry : Registry}

/-- Two receivers that do not take the same slot. -/
def Apart (registry : Registry) (a b : Receiver × Nat) : Prop :=
  ∀ slot, a.1.selector.slot registry = .ok (some slot) → b.1.selector.slot registry ≠ .ok (some slot)

/-- A receiver that passes takes a free slot if it takes any, and all slots that were taken stay so. -/
theorem exists_checkSlotsFrom_rest {taken : List (Slot × Nat)} {first : Receiver × Nat}
    {rest : List (Receiver × Nat)} (h : c.checkSlotsFrom registry taken (first :: rest) = .ok ()) :
    ∃ taken', c.checkSlotsFrom registry taken' rest = .ok () ∧
      (∀ slot, first.1.selector.slot registry = .ok (some slot) →
        taken.lookup slot = none ∧ taken'.lookup slot ≠ none) ∧
      ∀ slot, taken'.lookup slot = none → taken.lookup slot = none := by
  obtain ⟨r, i⟩ := first
  rw [checkSlotsFrom] at h
  cases htaking : r.selector.slot registry with
  | error e =>
    rw [htaking] at h
    cases h
  | ok taking =>
    rw [htaking] at h
    cases taking with
    | none =>
      refine ⟨taken, h, ?_, fun _ hnone => hnone⟩
      intro slot hslot
      cases hslot
    | some slot =>
      dsimp only at h
      cases hlookup : taken.lookup slot with
      | some holder =>
        rw [hlookup] at h
        cases h
      | none =>
        rw [hlookup] at h
        -- its slot is taken from here on, and no other slot gets free
        refine ⟨(slot, i) :: taken, h, ?_, ?_⟩
        · intro slot' hslot
          obtain rfl : slot = slot' := Option.some.inj (Except.ok.inj hslot)
          refine ⟨hlookup, ?_⟩
          rw [List.lookup_cons_self]
          exact Option.some_ne_none i
        · intro slot' hnone
          by_cases heq : slot' = slot
          · rw [heq]
            exact hlookup
          · rwa [List.lookup_cons, beq_false_of_ne heq] at hnone

/-- Every receiver that passes takes a slot or none. -/
theorem exists_slot_of_checkSlotsFrom {taken : List (Slot × Nat)} {rs : List (Receiver × Nat)}
    (h : c.checkSlotsFrom registry taken rs = .ok ()) :
    ∀ r ∈ rs, ∃ taking, r.1.selector.slot registry = .ok taking := by
  induction rs generalizing taken with
  | nil => exact nofun
  | cons first rest ih =>
    obtain ⟨taken', hrest, -, -⟩ := exists_checkSlotsFrom_rest h
    refine List.forall_mem_cons.mpr ⟨?_, ih hrest⟩
    rw [checkSlotsFrom] at h
    cases htaking : first.1.selector.slot registry with
    | error e =>
      rw [htaking] at h
      cases h
    | ok taking => exact ⟨taking, rfl⟩

/-- The receivers after some taken slots take none of these, and no two of them take the same. -/
theorem pairwise_of_checkSlotsFrom {taken : List (Slot × Nat)} {rs : List (Receiver × Nat)}
    (h : c.checkSlotsFrom registry taken rs = .ok ()) :
    rs.Pairwise (Apart registry) ∧
      ∀ r ∈ rs, ∀ slot, r.1.selector.slot registry = .ok (some slot) → taken.lookup slot = none := by
  induction rs generalizing taken with
  | nil =>
    refine ⟨.nil, ?_⟩
    intro r hr
    cases hr
  | cons first rest ih =>
    obtain ⟨taken', hrest, hfirst, hkeeps⟩ := exists_checkSlotsFrom_rest h
    obtain ⟨hpairwise, hfree⟩ := ih hrest
    refine ⟨.cons ?_ hpairwise, ?_⟩
    · -- whoever comes later finds the slot of the first one taken
      intro other hother slot hslot hslot'
      exact (hfirst slot hslot).2 (hfree other hother slot hslot')
    · intro other hother slot hslot
      rcases List.mem_cons.mp hother with rfl | hother
      · exact (hfirst slot hslot).1
      · exact hkeeps slot (hfree other hother slot hslot)

/-- Receivers of different slots pass after some taken slots if theirs are free. -/
theorem checkSlotsFrom_eq_ok {taken : List (Slot × Nat)} {rs : List (Receiver × Nat)}
    (hslots : ∀ r ∈ rs, ∃ taking, r.1.selector.slot registry = .ok taking)
    (hpairwise : rs.Pairwise (Apart registry))
    (hfree : ∀ r ∈ rs, ∀ slot, r.1.selector.slot registry = .ok (some slot) →
      taken.lookup slot = none) :
    c.checkSlotsFrom registry taken rs = .ok () := by
  induction rs generalizing taken with
  | nil => rfl
  | cons first rest ih =>
    obtain ⟨r, i⟩ := first
    obtain ⟨hfirst, hpairwise⟩ := List.pairwise_cons.mp hpairwise
    obtain ⟨hslot, hslots⟩ := List.forall_mem_cons.mp hslots
    obtain ⟨hfreeFirst, hfree⟩ := List.forall_mem_cons.mp hfree
    obtain ⟨taking, htaking⟩ := hslot
    cases taking with
    | none =>
      simp only [checkSlotsFrom, htaking]
      exact ih hslots hpairwise hfree
    | some slot =>
      simp only [checkSlotsFrom, htaking, hfreeFirst slot htaking]
      refine ih hslots hpairwise fun other hother slot' hslot' => ?_
      have hne : slot' ≠ slot := by
        rintro rfl
        exact hfirst other hother slot' htaking hslot'
      rw [List.lookup_cons, beq_false_of_ne hne]
      exact hfree other hother slot' hslot'

/-- The check passes only receivers that take a slot or none. -/
theorem exists_slot_of_checkSlots {d : Direction} (h : c.checkSlots registry d = .ok ()) :
    ∀ r ∈ c.receiversFor d, ∃ taking, r.1.selector.slot registry = .ok taking :=
  exists_slot_of_checkSlotsFrom h

/-- The check passes only receivers of different slots. -/
theorem pairwise_of_checkSlots {d : Direction} (h : c.checkSlots registry d = .ok ()) :
    (c.receiversFor d).Pairwise (Apart registry) :=
  (pairwise_of_checkSlotsFrom h).1

/-- Of receivers of different slots, one takes a slot. -/
theorem eq_of_pairwise_apart {rs : List (Receiver × Nat)} (h : rs.Pairwise (Apart registry))
    {a b : Receiver × Nat} (ha : a ∈ rs) (hb : b ∈ rs) {slot : Slot}
    (hslot : a.1.selector.slot registry = .ok (some slot))
    (hslot' : b.1.selector.slot registry = .ok (some slot)) : a = b := by
  by_contra hne
  have : Std.Symm (Apart registry) := ⟨by
    intro x y hxy slot hy hx
    exact hxy slot hx hy⟩
  exact h.forall ha hb hne slot hslot hslot'

/-- Of the receivers of a direction that were checked, one takes a slot. -/
theorem eq_of_slot_eq {d : Direction} (h : c.checkSlots registry d = .ok ()) {a b : Receiver × Nat}
    (ha : a ∈ c.receiversFor d) (hb : b ∈ c.receiversFor d) {slot : Slot}
    (hslot : a.1.selector.slot registry = .ok (some slot))
    (hslot' : b.1.selector.slot registry = .ok (some slot)) : a = b :=
  eq_of_pairwise_apart (pairwise_of_checkSlots h) ha hb hslot hslot'

/-- A receiver of a direction is found among those of the direction. -/
theorem mem_receiversFor {d : Direction} {r : Receiver} {i : Nat} (hr : c.receivers[i]? = some r)
    (hd : r.selector.direction = d) : (r, i) ∈ c.receiversFor d := by
  refine List.mem_filter.mpr ⟨List.mk_mem_zipIdx_iff_getElem?.mpr hr, ?_⟩
  simpa using hd

/-- Receivers with their indices stand in the order of these. -/
theorem pairwise_filter_zipIdx (c : Contract) (keep : Receiver × Nat → Bool) :
    (c.receivers.zipIdx.filter keep).Pairwise fun a b => a.2 < b.2 := by
  have hindices : (c.receivers.zipIdx.map (·.2)).Pairwise (· < ·) := by
    rw [List.zipIdx_map_snd]
    exact List.pairwise_lt_range'
  exact (List.pairwise_map.mp hindices).filter _

/-- The receivers of a direction stand in the order of their indices. -/
theorem receiversFor_pairwise (c : Contract) (d : Direction) :
    (c.receiversFor d).Pairwise fun a b => a.2 < b.2 :=
  c.pairwise_filter_zipIdx _

/-- The check passes receivers of which one takes each slot. -/
theorem checkSlots_eq_ok {d : Direction}
    (hslots : ∀ r ∈ c.receiversFor d, ∃ taking, r.1.selector.slot registry = .ok taking)
    (hone : ∀ a ∈ c.receiversFor d, ∀ b ∈ c.receiversFor d, ∀ slot,
      a.1.selector.slot registry = .ok (some slot) → b.1.selector.slot registry = .ok (some slot) →
        a = b) :
    c.checkSlots registry d = .ok () := by
  refine checkSlotsFrom_eq_ok hslots ?_ fun _ _ _ _ => rfl
  refine (c.receiversFor_pairwise d).imp_of_mem fun {a b} ha hb hlt slot hslot hslot' => ?_
  have hsame := hone a ha b hb slot hslot hslot'
  exact absurd hlt (hsame ▸ Nat.lt_irrefl _)

end Contract
end MessageRouter
