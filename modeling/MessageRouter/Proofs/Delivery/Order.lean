import Mathlib.Data.Fintype.Basic
import Mathlib.Data.List.OfFn
import Mathlib.Logic.Equiv.Fin.Rotate
import Mathlib.Tactic.FinCases
import MessageRouter.Proofs.Delivery.Bounces
import MessageRouter.Proofs.Delivery.Transfer
import MessageRouter.Proofs.Plan.Admission
/-!
# `Proofs.Delivery.Order` — receivers in another order

* `Contract.OrderMatters`: receivers that can take the same message and do not take the same slot.
* `Contract.permute`: the receivers of a contract in another order.
* `Contract.orderMatters_of_takes`: of the receivers of a direction, only such ones take the same message.
* `Simulator.alike_deliver_permute`: the order of other receivers does not matter.
-/
namespace MessageRouter

open Simulator

namespace Contract

/-- Receivers that can take the same message and do not take the same slot. -/
inductive OrderMatters (registry : Registry) : Receiver → Receiver → Prop where
  /-- Opcode zero is that of the empty message too. -/
  | opcode {r r' : Receiver} {d : Direction} {name binding : String} {l : Layout}
      (hs : r.selector = .empty d) (hs' : r'.selector = .message d name binding)
      (hl : registry.layout name = .ok l) (hzero : l.header.value = 0) : OrderMatters registry r r'
  /-- Comments of one tag are not told apart. -/
  | comment {r r' : Receiver} {d : Direction} {text text' tag : String}
      (hs : r.selector = .comment d text) (hs' : r'.selector = .comment d text')
      (ht : Comment.tag text r.loc = .ok tag) (ht' : Comment.tag text' r'.loc = .ok tag) :
      OrderMatters registry r r'

/-- The contract with its receivers in another order: the one at `i` moves to `σ i`. -/
def permute (c : Contract) (σ : Equiv.Perm (Fin c.receivers.length)) : Contract :=
  { c with receivers := List.ofFn fun i => c.receivers.get (σ.symm i) }

/-- The receiver at `i` moves to `j`. -/
def Moves (c : Contract) (σ : Equiv.Perm (Fin c.receivers.length)) (i j : Nat) : Prop :=
  ∃ h : i < c.receivers.length, j = σ ⟨i, h⟩

/-- The receivers of which the order matters stay in their order. -/
def KeepsOrder (c : Contract) (registry : Registry) (σ : Equiv.Perm (Fin c.receivers.length)) : Prop :=
  ∀ i j, OrderMatters registry (c.receivers.get i) (c.receivers.get j) → (i < j ↔ σ i < σ j)

variable {c : Contract} {registry : Registry} {σ : Equiv.Perm (Fin c.receivers.length)}

/-! ## Receivers that take the same message -/

/-- Receivers that take the same opcode. -/
theorem orderMatters_of_takeOpcode {s : Slice} {r r' : Receiver}
    (hd : r.selector.direction = r'.selector.direction) {got got' : Except Exit Received}
    (h : takeOpcode registry s r = some got) (h' : takeOpcode registry s r' = some got') :
    (∃ slot, r.selector.slot registry = .ok (some slot) ∧
        r'.selector.slot registry = .ok (some slot)) ∨
      OrderMatters registry r r' ∨ OrderMatters registry r' r := by
  have hzero {l : Layout} (hop : l.header.value.toNat = s.opcode) (hs : s.opcode = 0) :
      l.header.value = 0 := UInt32.toNat_inj.mp (hop.trans hs)
  rcases takeOpcode_eq_some h with ⟨d, name, binding, l, hs, hl, hop, -⟩ | ⟨d, hs, hop, -⟩
  · rcases takeOpcode_eq_some h' with ⟨d', name', binding', l', hs', hl', hop', -⟩ | ⟨d', hs', hop', -⟩
    · have hvalue : l'.header.value = l.header.value := UInt32.toNat_inj.mp (hop'.trans hop.symm)
      exact .inl ⟨_, slot_message hs hl, hvalue ▸ slot_message hs' hl'⟩
    · obtain rfl : d = d' := by simpa only [hs, hs', Selector.direction] using hd
      exact .inr (.inr (.opcode hs' hs hl (hzero hop hop')))
  · rcases takeOpcode_eq_some h' with ⟨d', name', binding', l', hs', hl', hop', -⟩ | ⟨d', hs', -⟩
    · obtain rfl : d = d' := by simpa only [hs, hs', Selector.direction] using hd
      exact .inr (.inl (.opcode hs hs' hl' (hzero hop' hop)))
    · exact .inl ⟨.empty, by rw [hs]; rfl, by rw [hs']; rfl⟩

/-- Of the receivers of a direction, those that take the same message take one slot or their order matters. -/
theorem orderMatters_of_takes {s : Slice} {isBounced : Bool} {take : Receiver → Taking}
    (htake : IsTaking registry s isBounced take) {r r' : Receiver}
    (hd : r.selector.direction = r'.selector.direction) {got got' : Except Exit Received}
    (h : take r = some got) (h' : take r' = some got') :
    (∃ slot, r.selector.slot registry = .ok (some slot) ∧
        r'.selector.slot registry = .ok (some slot)) ∨
      OrderMatters registry r r' ∨ OrderMatters registry r' r := by
  cases htake with
  | opcode => exact orderMatters_of_takeOpcode hd h h'
  | comment =>
    -- comments take no slots; which of two of one tag comes first matters
    obtain ⟨d, text, tag, hs, ht, -, rfl, -⟩ := takeComment_eq_some h
    obtain ⟨d', text', tag', hs', ht', -, rfl, -⟩ := takeComment_eq_some h'
    obtain rfl : d = d' := by simpa only [hs, hs', Selector.direction] using hd
    exact .inr (.inl (.comment hs hs' ht ht'))
  | anyComment =>
    obtain ⟨d, binding, hs, -⟩ := takeAnyComment_eq_some h
    obtain ⟨d', binding', hs', -⟩ := takeAnyComment_eq_some h'
    exact .inl ⟨.anyComment, by rw [hs]; rfl, by rw [hs']; rfl⟩
  | any =>
    obtain ⟨d, binding, hs, -⟩ := takeAny_eq_some h
    obtain ⟨d', binding', hs', -⟩ := takeAny_eq_some h'
    exact .inl ⟨.any, by rw [hs]; rfl, by rw [hs']; rfl⟩
  | bounced =>
    obtain ⟨value, hvalue, hslot⟩ := slot_of_takeBounced h
    obtain ⟨value', hvalue', hslot'⟩ := slot_of_takeBounced h'
    obtain rfl : value = value' := UInt32.toNat_inj.mp (hvalue.trans hvalue'.symm)
    exact .inl ⟨_, hslot, hslot'⟩
  | anyBounced =>
    obtain ⟨binding, hs, -⟩ := takeAnyBounced_eq_some h
    obtain ⟨binding', hs', -⟩ := takeAnyBounced_eq_some h'
    exact .inl ⟨.anyBounced, by rw [hs]; rfl, by rw [hs']; rfl⟩

/-! ## The receivers in another order -/

theorem length_receivers_permute : (c.permute σ).receivers.length = c.receivers.length :=
  List.length_ofFn

theorem Moves.getElem? {i j : Nat} (h : c.Moves σ i j) : (c.permute σ).receivers[j]? = c.receivers[i]? := by
  obtain ⟨hi, rfl⟩ := h
  have hj : (σ ⟨i, hi⟩ : Nat) < (c.permute σ).receivers.length :=
    lt_of_lt_of_eq (σ ⟨i, hi⟩).isLt length_receivers_permute.symm
  rw [List.getElem?_eq_getElem hj, List.getElem?_eq_getElem hi]
  simp [permute]

/-- Every receiver comes from somewhere. -/
theorem exists_moves {j : Nat} {r : Receiver} (h : (c.permute σ).receivers[j]? = some r) :
    ∃ i, c.Moves σ i j ∧ c.receivers[i]? = some r := by
  have hj : j < c.receivers.length := by
    rw [← length_receivers_permute (σ := σ)]
    exact (List.getElem?_eq_some_iff.mp h).1
  have hmoves : c.Moves σ (σ.symm ⟨j, hj⟩) j := ⟨(σ.symm ⟨j, hj⟩).isLt, by simp⟩
  exact ⟨_, hmoves, hmoves.getElem?.symm.trans h⟩

/-- A receiver moves to one place only. -/
theorem Moves.right_unique {i j j' : Nat} (h : c.Moves σ i j) (h' : c.Moves σ i j') : j = j' := by
  obtain ⟨hi, rfl⟩ := h
  obtain ⟨hi', rfl⟩ := h'
  rfl

/-- Every receiver goes somewhere. -/
theorem exists_moves_from {r : Receiver} {i : Nat} {d : Direction} (hr : (r, i) ∈ c.receiversFor d) :
    ∃ j, c.Moves σ i j := by
  obtain ⟨hi, -⟩ := List.getElem?_eq_some_iff.mp (getElem?_of_mem_receiversFor hr).1
  exact ⟨σ ⟨i, hi⟩, hi, rfl⟩

theorem Moves.mem_receiversFor {i j : Nat} (h : c.Moves σ i j) {r : Receiver} {d : Direction}
    (hr : (r, i) ∈ c.receiversFor d) : (r, j) ∈ (c.permute σ).receiversFor d := by
  obtain ⟨hi, hd⟩ := getElem?_of_mem_receiversFor hr
  exact Contract.mem_receiversFor (h.getElem?.trans hi) hd

theorem exists_moves_of_mem {r : Receiver} {j : Nat} {d : Direction}
    (hr : (r, j) ∈ (c.permute σ).receiversFor d) : ∃ i, c.Moves σ i j ∧ (r, i) ∈ c.receiversFor d := by
  obtain ⟨hj, hd⟩ := getElem?_of_mem_receiversFor hr
  obtain ⟨i, hmoves, hi⟩ := exists_moves hj
  exact ⟨i, hmoves, Contract.mem_receiversFor hi hd⟩

/-- A contract is admitted whatever the order of its receivers. -/
theorem IsAdmitted.permute (h : c.IsAdmitted registry) : (c.permute σ).IsAdmitted registry := by
  have hmem : ∀ r ∈ (c.permute σ).receivers, r ∈ c.receivers := by
    intro r hr
    obtain ⟨j, hj⟩ := List.getElem?_of_mem hr
    obtain ⟨i, -, hi⟩ := exists_moves hj
    exact List.mem_of_getElem? hi
  refine ⟨?_, fun r hr => h.functions r (hmem r hr), fun r hr => h.bodies r (hmem r hr)⟩
  rintro d ⟨a, j⟩ ha ⟨b, j'⟩ hb slot hslot hslot'
  obtain ⟨i, hi, ha⟩ := exists_moves_of_mem ha
  obtain ⟨i', hi', hb⟩ := exists_moves_of_mem hb
  obtain ⟨rfl, rfl⟩ := Prod.mk.inj (h.slots d _ ha _ hb slot hslot hslot')
  rw [hi.right_unique hi']

/-! ## Who is found -/

theorem KeepsOrder.lt_iff_lt (hσ : c.KeepsOrder registry σ) {i i' j j' : Nat} {r r' : Receiver}
    (hr : c.receivers[i]? = some r) (hr' : c.receivers[i']? = some r') (hi : c.Moves σ i j)
    (hi' : c.Moves σ i' j') (h : OrderMatters registry r r') : i < i' ↔ j < j' := by
  obtain ⟨hi, rfl⟩ := hi
  obtain ⟨hi', rfl⟩ := hi'
  obtain ⟨_, rfl⟩ := List.getElem?_eq_some_iff.mp hr
  obtain ⟨_, rfl⟩ := List.getElem?_eq_some_iff.mp hr'
  exact hσ ⟨i, hi⟩ ⟨i', hi'⟩ h

/-- Of two receivers of a direction that take the same message, the one that comes first in the new order came
first in the old one. -/
theorem lt_of_takes (h : c.IsAdmitted registry) (hσ : c.KeepsOrder registry σ) {s : Slice}
    {isBounced : Bool} {take : Receiver → Taking} (htake : IsTaking registry s isBounced take)
    {d : Direction} {r r' : Receiver} {i i' j j' : Nat} (hr : (r, i) ∈ c.receiversFor d)
    (hr' : (r', i') ∈ c.receiversFor d) (hi : c.Moves σ i j) (hi' : c.Moves σ i' j')
    {got got' : Except Exit Received} (hgot : take r = some got) (hgot' : take r' = some got')
    (hlt : j < j') : i < i' := by
  obtain ⟨hget, hd⟩ := getElem?_of_mem_receiversFor hr
  obtain ⟨hget', hd'⟩ := getElem?_of_mem_receiversFor hr'
  have hne : i ≠ i' := by
    rintro rfl
    rw [hi.right_unique hi'] at hlt
    exact lt_irrefl _ hlt
  rcases orderMatters_of_takes htake (hd.trans hd'.symm) hgot hgot' with
    ⟨slot, hslot, hslot'⟩ | hmatters | hmatters
  · obtain ⟨-, heq⟩ := Prod.mk.inj (h.slots d _ hr _ hr' slot hslot hslot')
    exact absurd heq hne
  · exact (hσ.lt_iff_lt hget hget' hi hi' hmatters).mpr hlt
  · have hnot : ¬i' < i := fun hback =>
      lt_asymm hlt ((hσ.lt_iff_lt hget' hget hi' hi hmatters).mp hback)
    omega

/-- The first receiver that takes a message in the old order does so in the new one. -/
theorem findAlike_permute (h : c.IsAdmitted registry) (hσ : c.KeepsOrder registry σ) {s : Slice}
    {isBounced : Bool} {take : Receiver → Taking} (htake : IsTaking registry s isBounced take)
    (d : Direction) :
    FindAlike (c.Moves σ) take (c.receiversFor d) ((c.permute σ).receiversFor d) := by
  unfold FindAlike
  cases hfirst : first take (c.receiversFor d) with
  | none =>
    have hnone := first_eq_none_iff.mp hfirst
    rw [first_eq_none]
    · exact .none
    · rintro ⟨r, j⟩ hr
      obtain ⟨i, -, hi⟩ := exists_moves_of_mem hr
      exact hnone (r, i) hi
  | some choice =>
    obtain ⟨r, i, got, hr, hgot, rfl, hbefore⟩ := exists_least_of_first hfirst
    obtain ⟨j, hmoves⟩ := exists_moves_from (σ := σ) hr
    -- whoever takes the message and comes before in the new order came before in the old one
    have hfound : first take ((c.permute σ).receiversFor d) = some (got.map (.call j)) := by
      refine first_eq_of_least (hmoves.mem_receiversFor hr) hgot ?_
      intro r' j' hr' hlt
      by_contra hsome
      obtain ⟨got', hgot'⟩ := Option.ne_none_iff_exists'.mp hsome
      obtain ⟨i', hmoves', hr'⟩ := exists_moves_of_mem hr'
      exact hsome (hbefore r' i' hr' (lt_of_takes h hσ htake hr' hr hmoves' hmoves hgot' hgot hlt))
    rw [hfound]
    cases got with
    | error e => exact .some (.error e)
    | ok received => exact .some (.ok (.call hmoves received))

/-- There are receivers of bounces whatever the order. -/
theorem any_isBounce_permute (d : Direction) :
    (c.receiversFor d).any (·.1.selector.isBounce) =
      ((c.permute σ).receiversFor d).any (·.1.selector.isBounce) := by
  rw [Bool.eq_iff_iff, List.any_eq_true, List.any_eq_true]
  constructor
  · rintro ⟨⟨r, i⟩, hr, hbounce⟩
    obtain ⟨j, hmoves⟩ := exists_moves_from (σ := σ) hr
    exact ⟨(r, j), hmoves.mem_receiversFor hr, hbounce⟩
  · rintro ⟨⟨r, j⟩, hr, hbounce⟩
    obtain ⟨i, -, hi⟩ := exists_moves_of_mem hr
    exact ⟨(r, i), hi, hbounce⟩

/-- A receiver that moves stays the same. -/
theorem Moves.twins {i j : Nat} (h : c.Moves σ i j) : c.Twins (c.permute σ) i j := by
  have hget := List.getElem?_eq_getElem h.fst
  exact ⟨_, _, hget, h.getElem?.trans hget, rfl, rfl⟩

end Contract

/-- The order of receivers does not matter, except of the receiver of the empty message and one of a message of
opcode zero, and of comments of one tag: with these in their order, a contract can be simulated in any order and
does the same with every message, which goes to the same receiver. -/
theorem Simulator.alike_deliver_permute {c : Contract} {registry : Registry} {sim : Simulator}
    (h : ofContract c registry = .ok sim) {σ : Equiv.Perm (Fin c.receivers.length)}
    (hσ : c.KeepsOrder registry σ) :
    ∃ sim', ofContract (c.permute σ) registry = .ok sim' ∧ ∀ d state body isBounced,
      Fallible.Alike (Outcome.Alike (c.Moves σ)) (sim.deliver d state body isBounced)
        (sim'.deliver d state body isBounced) := by
  have hadmitted := isAdmitted_of_ofContract h
  obtain ⟨sim', h'⟩ := exists_ofContract_iff.mpr (hadmitted.permute (σ := σ))
  refine ⟨sim', h', fun d state body isBounced => ?_⟩
  refine alike_deliver h h' rfl (fun _ _ hij => hij.twins) (Contract.alike_rule ?_ ?_ body) state
  · exact fun _ => Contract.any_isBounce_permute d
  · exact fun s take htake => Contract.findAlike_permute hadmitted hσ htake d

/-- In the vault, only the receivers of the empty message and of deposits must stay in their order. -/
theorem Contract.keepsOrder_vault : Contract.vault.KeepsOrder ⟨[.deposit]⟩ (finRotate 3) := by
  intro (i : Fin 3) (j : Fin 3) h
  cases h with
  | opcode hs hs' =>
    fin_cases i <;> cases hs
    fin_cases j <;> cases hs'
    decide
  | comment hs => fin_cases i <;> cases hs

/-- The vault does the same with its receiver of bounces before the others. -/
theorem Simulator.alike_deliver_permute_vault :
    ∃ sim, ofContract .vault ⟨[.deposit]⟩ = .ok sim ∧
      Contract.vault.KeepsOrder ⟨[.deposit]⟩ (finRotate 3) ∧
      ∃ sim', ofContract (Contract.vault.permute (finRotate 3)) ⟨[.deposit]⟩ = .ok sim' ∧
        ∀ d state body isBounced, Fallible.Alike (Outcome.Alike (Contract.vault.Moves (finRotate 3)))
          (sim.deliver d state body isBounced) (sim'.deliver d state body isBounced) := by
  obtain ⟨sim, h⟩ := Contract.exists_simulator_vault
  exact ⟨sim, h, Contract.keepsOrder_vault, alike_deliver_permute h Contract.keepsOrder_vault⟩

end MessageRouter
