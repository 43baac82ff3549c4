import MessageRouter.Proofs.Delivery.Comments
import MessageRouter.Proofs.Delivery.Transfer
/-!
# `Proofs.Delivery.Classes` — messages of one class and receivers for others

* `MessageClass`: messages from contracts, bounced or not, and messages from outside.
* `Contract.members`: the receivers for the messages of a class.
* `Contract.first_receiversFor_eq`: a search for a message finds what it finds among the receivers for its class.
* `Contract.SameMembers`: two contracts have the same receivers for a class.
* `Contract.SamePosition`: receivers of two contracts at one position among those for a class.
* `Simulator.alike_deliver_of_sameMembers`: contracts with the same receivers for a class do the same with its messages.
-/
namespace MessageRouter

open Simulator

/-- The classes of messages. From outside, none is bounced. -/
inductive MessageClass where
  | plain
  | bounced
  | external
  deriving DecidableEq, Repr

/-- The class of a message. -/
def MessageClass.of : Direction → Bool → MessageClass
  | .internal, false => .plain
  | .internal, true => .bounced
  | .external, _ => .external

namespace Selector

/-- The class whose messages a selector is for. -/
def messageClass (s : Selector) : MessageClass := .of s.direction s.isBounce

theorem messageClass_eq_of_iff {s : Selector} {d : Direction} {isBounced : Bool} :
    s.messageClass = .of d isBounced ↔
      s.direction = d ∧ s.isBounce = (decide (d = .internal) && isBounced) := by
  have hexternal : s.isBounce = true → s.direction = .internal := direction_of_isBounce
  unfold messageClass
  generalize s.direction = d', s.isBounce = isBounce at *
  revert hexternal
  cases d <;> cases d' <;> cases isBounced <;> cases isBounce <;> decide

end Selector

namespace Contract

/-- The receivers for the messages of a class with their indices, in the order of their declaration. -/
def members (c : Contract) (k : MessageClass) : List (Receiver × Nat) :=
  c.receivers.zipIdx.filter fun r => r.1.selector.messageClass = k

/-- Receivers of two contracts that stand at the same position among those for a class. -/
def SamePosition (c c' : Contract) (k : MessageClass) (i j : Nat) : Prop :=
  ∃ (n : Nat) (r r' : Receiver), (c.members k)[n]? = some (r, i) ∧ (c'.members k)[n]? = some (r', j)

/-- Two contracts have receivers for a class with the same selectors and bodies, in the same order. -/
def SameMembers (c c' : Contract) (k : MessageClass) : Prop :=
  (c.members k).map (fun r => (r.1.selector, r.1.body)) =
    (c'.members k).map fun r => (r.1.selector, r.1.body)

/-! ## The receivers for a class -/

section Members

variable {c : Contract} {registry : Registry} {s : Slice} {d : Direction} {isBounced : Bool}
  {take : Receiver → Taking}

/-- The receivers for a class are among those of its direction. -/
theorem members_eq_filter (c : Contract) (d : Direction) (isBounced : Bool) :
    c.members (.of d isBounced) =
      (c.receiversFor d).filter fun r => r.1.selector.messageClass = .of d isBounced := by
  rw [receiversFor, List.filter_filter]
  refine List.filter_congr fun r _ => ?_
  rw [Bool.eq_iff_iff]
  simp only [Selector.messageClass_eq_of_iff, decide_eq_true_eq, Bool.and_eq_true, beq_iff_eq]
  tauto

theorem getElem?_of_mem_members {k : MessageClass} {r : Receiver} {i : Nat}
    (h : (r, i) ∈ c.members k) : c.receivers[i]? = some r :=
  List.mk_mem_zipIdx_iff_getElem?.mp (List.mem_filter.mp h).1

/-- A search finds what it finds without receivers that do not take the message. -/
theorem first_filter {p : Receiver × Nat → Bool} {rs : List (Receiver × Nat)}
    (h : ∀ r ∈ rs, p r = false → take r.1 = none) : first take (rs.filter p) = first take rs := by
  induction rs with
  | nil => rfl
  | cons r rs ih =>
    obtain ⟨hr, hrs⟩ := List.forall_mem_cons.mp h
    cases hp : p r with
    | true =>
      rw [List.filter_cons_of_pos hp]
      simp only [first, List.findSome?_cons] at ih ⊢
      rw [ih hrs]
    | false =>
      have hnone : taken take r = none := by
        rw [taken, hr hp]
        rfl
      rw [List.filter_cons_of_neg (by simp [hp]), ih hrs, first, first, List.findSome?_cons, hnone]

/-- A search for a message finds what it finds among the receivers for its class. -/
theorem first_receiversFor_eq
    (htake : IsTaking registry s (decide (d = .internal) && isBounced) take) :
    first take (c.receiversFor d) = first take (c.members (.of d isBounced)) := by
  rw [members_eq_filter]
  refine (first_filter fun r hr hclass => ?_).symm
  cases hgot : take r.1 with
  | none => rfl
  | some got =>
    have hd := (getElem?_of_mem_receiversFor hr).2
    exact absurd (Selector.messageClass_eq_of_iff.mpr ⟨hd, htake.isBounce_eq hgot⟩) (by simpa using hclass)

/-- There are receivers of bounces exactly if there are receivers for bounced messages. -/
theorem any_isBounce_eq (c : Contract) :
    (c.receiversFor .internal).any (·.1.selector.isBounce) = !(c.members .bounced).isEmpty := by
  rw [show MessageClass.bounced = .of .internal true from rfl, members_eq_filter, Bool.eq_iff_iff,
    Bool.not_eq_true', List.isEmpty_eq_false_iff_exists_mem, List.any_eq_true]
  refine exists_congr fun r => ?_
  rw [List.mem_filter, decide_eq_true_eq, Selector.messageClass_eq_of_iff]
  refine and_congr_right fun hr => ?_
  have hd := (getElem?_of_mem_receiversFor hr).2
  simp [hd]

end Members

/-! ## Two contracts with the same receivers for a class -/

section Agreement

variable {c c' : Contract} {registry : Registry} {k : MessageClass}

/-- Whether a receiver takes a message depends on its selector only. -/
theorem IsTaking.eq_of_selector_eq {s : Slice} {isBounced : Bool} {take : Receiver → Taking}
    (h : IsTaking registry s isBounced take) {r r' : Receiver} (hs : r.selector = r'.selector) :
    take r = take r' := by
  cases h with
  | opcode => rw [takeOpcode, takeOpcode, hs]
  | comment =>
    unfold takeComment
    rw [hs]
    split
    · next d text _ =>
      -- the tag of a comment does not depend on where the comment stands
      have htag {tag : String} {loc loc' : Option Span} (h : Comment.tag text loc = .ok tag) :
          Comment.tag text loc' = .ok tag := Comment.tag_eq_ok_iff.mpr (Comment.tag_eq_ok_iff.mp h)
      cases ht : Comment.tag text r.loc with
      | ok tag => rw [htag ht]
      | error e =>
        cases ht' : Comment.tag text r'.loc with
        | ok tag => exact nomatch ht.symm.trans (htag ht')
        | error e' => rfl
    · rfl
  | anyComment => rw [takeAnyComment, takeAnyComment, hs]
  | any => rw [takeAny, takeAny, hs]
  | bounced => rw [takeBounced, takeBounced, hs]
  | anyBounced => rw [takeAnyBounced, takeAnyBounced, hs]

/-- A search finds receivers at the same place in lists with the same selectors. -/
theorem findAlike_of_forall₂ {s : Slice} {isBounced : Bool} {take : Receiver → Taking}
    {R : Nat → Nat → Prop} {rs rs' : List (Receiver × Nat)}
    (htake : IsTaking registry s isBounced take)
    (h : List.Forall₂ (fun a b => a.1.selector = b.1.selector ∧ R a.2 b.2) rs rs') :
    FindAlike R take rs rs' := by
  induction h with
  | nil => exact .none
  | @cons a b _ _ hab _ ih =>
    obtain ⟨hs, hR⟩ := hab
    unfold FindAlike first at ih ⊢
    rw [List.findSome?_cons, List.findSome?_cons, taken, taken, ← htake.eq_of_selector_eq hs]
    cases take a.1 with
    | none => exact ih
    | some got =>
      cases got with
      | ok received => exact .some (.ok (.call hR received))
      | error e => exact .some (.error e)

namespace SameMembers

/-- Receivers at one position have the same selector and body. -/
theorem eq_of_getElem? (h : c.SameMembers c' k) {n i j : Nat} {r r' : Receiver}
    (hr : (c.members k)[n]? = some (r, i)) (hr' : (c'.members k)[n]? = some (r', j)) :
    r.selector = r'.selector ∧ r.body = r'.body := by
  have hn := congrArg (·[n]?) h
  simpa only [List.getElem?_map, hr, hr', Option.map_some, Option.some.injEq, Prod.mk.injEq] using hn

/-- Receivers at one position are twins. -/
theorem twins (h : c.SameMembers c' k) {i j : Nat} (hij : c.SamePosition c' k i j) :
    c.Twins c' i j := by
  obtain ⟨n, r, r', hr, hr'⟩ := hij
  exact ⟨r, r', getElem?_of_mem_members (List.mem_of_getElem? hr),
    getElem?_of_mem_members (List.mem_of_getElem? hr'), h.eq_of_getElem? hr hr'⟩

/-- The receivers for the class go together position by position. -/
theorem forall₂ (h : c.SameMembers c' k) :
    List.Forall₂ (fun a b => a.1.selector = b.1.selector ∧ c.SamePosition c' k a.2 b.2)
      (c.members k) (c'.members k) := by
  refine List.forall₂_iff_get.mpr ⟨by simpa using congrArg List.length h, fun n hn hn' => ?_⟩
  have hr := List.getElem?_eq_getElem hn
  have hr' := List.getElem?_eq_getElem hn'
  exact ⟨(h.eq_of_getElem? hr hr').1, n, _, _, hr, hr'⟩

end SameMembers

/-- Contracts with the same receivers for a class choose alike for its messages. -/
theorem alike_rule_of_sameMembers {d : Direction} {isBounced : Bool}
    (h : c.SameMembers c' (.of d isBounced)) (body : Cell) :
    Fallible.Alike (Selection.Alike (c.SamePosition c' (.of d isBounced)))
      (c.rule registry d body isBounced) (c'.rule registry d body isBounced) := by
  refine alike_rule ?_ (fun s take htake => ?_) body
  · rintro ⟨rfl, rfl⟩
    have hempty := congrArg List.isEmpty h
    rw [List.isEmpty_map, List.isEmpty_map] at hempty
    rw [any_isBounce_eq, any_isBounce_eq]
    exact congrArg (!·) hempty
  · rw [FindAlike, first_receiversFor_eq htake, first_receiversFor_eq htake]
    exact findAlike_of_forall₂ htake h.forall₂

end Agreement
end Contract

/-- Contracts with the same fields and the same receivers for a class do the same with the messages of the class,
whichever receivers they have for others: each gives the same state, is handled or fails alike, and goes to
receivers at the same position among those for the class. -/
theorem Simulator.alike_deliver_of_sameMembers {c c' : Contract} {registry : Registry}
    {sim sim' : Simulator} (h : ofContract c registry = .ok sim) (h' : ofContract c' registry = .ok sim')
    (hfields : c.fields = c'.fields) {d : Direction} {isBounced : Bool}
    (hmembers : c.SameMembers c' (.of d isBounced)) (state : Record) (body : Cell) :
    Fallible.Alike (Outcome.Alike (c.SamePosition c' (.of d isBounced)))
      (sim.deliver d state body isBounced) (sim'.deliver d state body isBounced) :=
  alike_deliver h h' hfields (fun _ _ hij => hmembers.twins hij)
    (Contract.alike_rule_of_sameMembers hmembers body) state

/-- The counter, with a receiver of messages from outside before its own and one of bounced messages between
them. -/
def Contract.mixedCounter : Contract where
  name := "MixedCounter"
  fields := Contract.counter.fields
  receivers :=
    ⟨.any .external "body", [.throw 101], none⟩ ::
      Contract.counter.receivers.intersperse ⟨.anyBounced "body", [.throw 102], none⟩

/-- Both counters count an empty message, the one with its first receiver and the other with its second. -/
theorem Simulator.alike_deliver_of_sameMembers_counter :
    ∃ sim sim', ofContract .counter .empty = .ok sim ∧ ofContract .mixedCounter .empty = .ok sim' ∧
      Contract.counter.fields = Contract.mixedCounter.fields ∧
      Contract.counter.SameMembers .mixedCounter (.of .internal false) ∧
      Fallible.Alike
        (Outcome.Alike (Contract.counter.SamePosition .mixedCounter (.of .internal false)))
        (sim.deliver .internal ⟨[("n", .int 0)]⟩ .empty false)
        (sim'.deliver .internal ⟨[("n", .int 0)]⟩ .empty false) ∧
      (sim.deliver .internal ⟨[("n", .int 0)]⟩ .empty false).map (·.receiver) = .ok (some 0) ∧
      (sim'.deliver .internal ⟨[("n", .int 0)]⟩ .empty false).map (·.receiver) = .ok (some 1) := by
  have hmembers : Contract.counter.SameMembers .mixedCounter (.of .internal false) := rfl
  have hfields : Contract.counter.fields = Contract.mixedCounter.fields := rfl
  refine ⟨_, _, rfl, rfl, hfields, hmembers, alike_deliver_of_sameMembers rfl rfl hfields hmembers _ _,
    ?_, ?_⟩
  · decide +kernel
  · decide +kernel

end MessageRouter
