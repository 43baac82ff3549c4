import MessageRouter.Proofs.Delivery.Receipt
import MessageRouter.Proofs.Delivery.RoundTrip
/-!
# `Proofs.Delivery.Messages` — messages reach the receiver of their type

* `Contract.slot_or_empty_of_takeOpcode`: whoever takes a message of an opcode has the slot of that opcode or is
  for the empty message.
* `Contract.eq_or_empty_of_takeOpcode`: so does only one receiver, or the one for the empty message.
* `Contract.first_takeOpcode_message`, `Contract.first_takeOpcode_empty`: which of the two is the first.
* `Simulator.deliver_encode`: a message that is written is delivered to the receiver of its type, as a struct of
  the values that were written.
-/
namespace MessageRouter

open Simulator

namespace Contract

variable {c : Contract} {registry : Registry} {s : Slice} {d : Direction} {r : Receiver} {i : Nat}

/-! ## Who takes a message of an opcode -/

/-- The slot of a receiver of a message type is that of the type's opcode. -/
theorem slot_message {name binding : String} {l : Layout} (hs : r.selector = .message d name binding)
    (hl : registry.layout name = .ok l) :
    r.selector.slot registry = .ok (some (.opcode false l.header.value)) := by
  rw [hs, Selector.slot, hl]
  rfl

/-- Whoever takes a message of an opcode has the slot of that opcode or is for the empty message. -/
theorem slot_or_empty_of_takeOpcode {got : Except Exit Received}
    (h : takeOpcode registry s r = some got) :
    (∃ value : UInt32, value.toNat = s.opcode ∧
        r.selector.slot registry = .ok (some (.opcode false value))) ∨
      ((∃ d, r.selector = .empty d) ∧ s.opcode = 0 ∧ s.remaining ≤ opcodeBits) := by
  rcases takeOpcode_eq_some h with ⟨d, name, binding, l, hs, hl, hop, -⟩ | ⟨d, hs, hop, hlength, -⟩
  · exact .inl ⟨l.header.value, hop, slot_message hs hl⟩
  · exact .inr ⟨⟨d, hs⟩, hop, hlength⟩

/-- A receiver of a message type takes the messages of its opcode. -/
theorem takeOpcode_message {name binding : String} {l : Layout}
    (hs : r.selector = .message d name binding) (hl : registry.layout name = .ok l)
    (hop : s.opcode = l.header.value.toNat) :
    takeOpcode registry s r = some ((readLayout l false s).map .struct) := by
  unfold takeOpcode
  simp only [hs, hl]
  rw [if_pos hop.symm]

/-- The receiver of the empty message takes what has opcode zero and nothing after it. -/
theorem takeOpcode_empty (hs : r.selector = .empty d) (hop : s.opcode = 0)
    (hlength : s.remaining ≤ opcodeBits) : takeOpcode registry s r = some (.ok .nothing) := by
  unfold takeOpcode
  simp only [hs]
  rw [if_pos ⟨hop, hlength⟩]

/-- Of the receivers that were checked, only the one of its opcode takes a message, or the one for the empty
message. -/
theorem eq_or_empty_of_takeOpcode (hslots : c.checkSlots registry d = .ok ())
    (hr : (r, i) ∈ c.receiversFor d) {value : UInt32}
    (hslot : r.selector.slot registry = .ok (some (.opcode false value)))
    (hop : s.opcode = value.toNat) {r' : Receiver} {j : Nat} (hr' : (r', j) ∈ c.receiversFor d)
    {got : Except Exit Received} (h : takeOpcode registry s r' = some got) :
    (r', j) = (r, i) ∨ (r'.selector = .empty d ∧ s.opcode = 0 ∧ s.remaining ≤ opcodeBits) := by
  rcases slot_or_empty_of_takeOpcode h with ⟨value', hvalue, hslot'⟩ | ⟨⟨d', hempty⟩, hrest⟩
  · have heq : value' = value := UInt32.toNat_inj.mp (hvalue.trans hop)
    rw [heq] at hslot'
    exact .inl (eq_of_slot_eq hslots hr' hr hslot' hslot)
  · have hdir : r'.selector.direction = d := (getElem?_of_mem_receiversFor hr').2
    rw [hempty] at hdir
    exact .inr ⟨hempty.trans (congrArg Selector.empty hdir), hrest⟩

/-- The first to take a message is the receiver of its opcode, unless one of the empty message comes before. -/
theorem first_takeOpcode_message (hslots : c.checkSlots registry d = .ok ())
    (hr : (r, i) ∈ c.receiversFor d) {name binding : String} {l : Layout}
    (hs : r.selector = .message d name binding) (hl : registry.layout name = .ok l)
    (hop : s.opcode = l.header.value.toNat)
    (hfree : ∀ r' j, c.receivers[j]? = some r' → j < i → r'.selector = .empty d →
      s.opcode = 0 → opcodeBits < s.remaining) :
    first (takeOpcode registry s) (c.receiversFor d) =
      some (((readLayout l false s).map .struct).map (.call i)) := by
  refine first_eq_of_least hr (takeOpcode_message hs hl hop) ?_
  intro r' j hr' hlt
  by_contra hsome
  obtain ⟨got, hgot⟩ := Option.ne_none_iff_exists'.mp hsome
  rcases eq_or_empty_of_takeOpcode hslots hr (slot_message hs hl) hop hr' hgot with
    heq | ⟨hempty, hzero, hshort⟩
  · injection heq with _ hindex
    omega
  · have hlong := hfree r' j (getElem?_of_mem_receiversFor hr').1 hlt hempty hzero
    omega

/-- The first to take an opcode of zero with nothing after it is the receiver of the empty message, if it comes
before the one of the opcode. -/
theorem first_takeOpcode_empty (hslots : c.checkSlots registry d = .ok ())
    (hr : (r, i) ∈ c.receiversFor d) {value : UInt32}
    (hslot : r.selector.slot registry = .ok (some (.opcode false value)))
    (hop : s.opcode = value.toNat) {r' : Receiver} {j : Nat} (hr' : (r', j) ∈ c.receiversFor d)
    (hempty : r'.selector = .empty d) (hlt : j < i) (hzero : s.opcode = 0)
    (hshort : s.remaining ≤ opcodeBits) :
    first (takeOpcode registry s) (c.receiversFor d) = some (.ok (.call j .nothing)) := by
  refine first_eq_of_least hr' (takeOpcode_empty hempty hzero hshort) ?_
  intro r'' k hr'' hlt'
  by_contra hsome
  obtain ⟨got, hgot⟩ := Option.ne_none_iff_exists'.mp hsome
  rcases eq_or_empty_of_takeOpcode hslots hr hslot hop hr'' hgot with heq | ⟨hempty', -, -⟩
  · injection heq with _ hindex
    omega
  · -- two receivers of the empty message would take one slot
    have hslot' : r'.selector.slot registry = .ok (some .empty) := by rw [hempty]; rfl
    have hslot'' : r''.selector.slot registry = .ok (some .empty) := by rw [hempty']; rfl
    injection eq_of_slot_eq hslots hr'' hr' hslot'' hslot' with _ hindex
    omega

/-- Whoever takes a message of an opcode gets it before all others. -/
theorem rule_of_first_takeOpcode {body : Cell} {x : Except Exit (Selection Nat)}
    (h : first (takeOpcode registry (Slice.ofCell body)) (c.receiversFor d) = some x) :
    c.rule registry d body false = x := by
  have hplain : ¬(d = .internal ∧ false = true) := by
    rintro ⟨-, hfalse⟩
    cases hfalse
  rw [rule, if_neg hplain, plainRule, h]
  rfl

end Contract

namespace Simulator

variable {c : Contract} {registry : Registry} {sim : Simulator} {d : Direction} {i : Nat}
  {r : Receiver}

/-- A message that is written is delivered to the receiver of its type, which gets the values that were written
and runs in the state as it is given. Only if the message is nothing but an opcode of zero, and a receiver of the
empty message comes first, that one runs instead. -/
theorem deliver_encode (h : ofContract c registry = .ok sim) (hr : c.receivers[i]? = some r)
    {name binding : String} (hselector : r.selector = .message d name binding) {l : Layout}
    (hl : registry.layout name = .ok l) {values : Record} {cell : Cell}
    (hcell : Codec.encode l.message values = .ok cell) (state : Record) :
    (¬(l.header.value = 0 ∧ cell.bits.length = 32 ∧
          ∃ j r', j < i ∧ c.receivers[j]? = some r' ∧ r'.selector = .empty d) →
        ∃ payload, values.Picks l.message.fields payload ∧
          c.RunsReceiver registry state i (.struct payload) (sim.deliver d state cell false)) ∧
      ∀ j r', l.header.value = 0 → cell.bits.length = 32 → j < i → c.receivers[j]? = some r' →
        r'.selector = .empty d →
          c.RunsReceiver registry state j .nothing (sim.deliver d state cell false) := by
  obtain ⟨-, hheader⟩ := Registry.layout_eq_ok_iff.mp hl
  obtain ⟨entries, bits, hwires, hpicks, rfl⟩ := Codec.encode_eq_ok hheader hcell
  have hmem : (r, i) ∈ c.receiversFor d := Contract.mem_receiversFor hr (by rw [hselector]; rfl)
  have hslots := checkSlots_of_mem h hmem
  have hop := opcode_ofNat l.header.value bits []
  constructor
  · intro hfree
    refine ⟨⟨entries⟩, hpicks, deliver_runsReceiver h state ?_⟩
    have hread : readLayout l false ⟨Bits.ofNat opcodeBits l.header.value.toNat ++ bits, []⟩ =
        .ok ⟨entries⟩ := readLayout_ofNat hwires.decodeEntries_self
    have hfirst := Contract.first_takeOpcode_message hslots hmem hselector hl hop ?_
    · rw [hread] at hfirst
      exact Contract.rule_of_first_takeOpcode hfirst
    · intro r' j hr' hlt hempty hzero
      by_contra hshort
      have hlength := length_ofNat_append l.header.value bits
      refine hfree ⟨?_, ?_, j, r', hlt, hr', hempty⟩
      · exact UInt32.toNat_inj.mp (hop.symm.trans hzero)
      · have hshort' : (Bits.ofNat opcodeBits l.header.value.toNat ++ bits).length ≤ 32 :=
          Nat.le_of_not_lt hshort
        rw [Cell.bits_mk]
        omega
  · intro j r' hzero hshort hlt hr' hempty
    have hmem' : (r', j) ∈ c.receiversFor d := Contract.mem_receiversFor hr' (by rw [hempty]; rfl)
    have hopzero : Slice.opcode ⟨Bits.ofNat opcodeBits l.header.value.toNat ++ bits, []⟩ = 0 := by
      rw [hop, hzero]
      rfl
    refine deliver_runsReceiver h state (Contract.rule_of_first_takeOpcode ?_)
    exact Contract.first_takeOpcode_empty hslots hmem (Contract.slot_message hselector hl) hop hmem'
      hempty hlt hopzero (Nat.le_of_eq hshort)

end Simulator

/-! ## A contract of messages -/

/-- A message whose opcode is that of the empty message. -/
def Message.deposit : Message := ⟨"Deposit", some ⟨0, .dec⟩, [⟨"id", .uint 8⟩, ⟨"amount", .coins⟩]⟩

/-- Adds deposits up, and takes empty messages and deposits that bounced. -/
def Contract.vault : Contract where
  name := "Vault"
  fields := [⟨"total", .coins⟩]
  receivers :=
    [⟨.empty .internal, [], none⟩,
      ⟨.message .internal "Deposit" "m",
        [.set ⟨"self", some "total"⟩
          (.binary .add (.place ⟨"self", some "total"⟩) (.place ⟨"m", some "amount"⟩))], none⟩,
      ⟨.bounced "Deposit" "m" true, [.throw 7], none⟩]

/-- The values of a deposit. -/
def Record.deposit : Record := ⟨[("amount", .int (.ofNat 500)), ("id", .int (.ofNat 3))]⟩

theorem Contract.exists_simulator_vault : ∃ sim, ofContract .vault ⟨[.deposit]⟩ = .ok sim := ⟨_, rfl⟩

/-- An opcode, a byte, four bits for the length of an amount and its two bytes. -/
theorem Record.exists_cell_deposit :
    ∃ cell, Codec.encode .deposit .deposit = .ok cell ∧ cell.bits.length = 60 := ⟨_, rfl, rfl⟩

/-- A deposit is delivered as one, although its opcode is that of the empty message. -/
theorem Simulator.deliver_encode_vault :
    ∃ sim cell, ofContract .vault ⟨[.deposit]⟩ = .ok sim ∧
      Codec.encode .deposit .deposit = .ok cell ∧
      ∃ payload, Record.deposit.Picks Message.deposit.fields payload ∧
        Contract.vault.RunsReceiver ⟨[.deposit]⟩ (Record.zeroed Contract.vault.fields) 1
          (.struct payload)
          (sim.deliver .internal (Record.zeroed Contract.vault.fields) cell false) := by
  obtain ⟨sim, hsim⟩ := Contract.exists_simulator_vault
  obtain ⟨cell, hcell, hlength⟩ := Record.exists_cell_deposit
  have hl : Registry.layout ⟨[.deposit]⟩ "Deposit" = .ok ⟨.deposit, ⟨0, .dec⟩⟩ := rfl
  refine ⟨sim, cell, hsim, hcell, (deliver_encode hsim rfl rfl hl hcell _).1 ?_⟩
  rintro ⟨-, hlength', -⟩
  rw [hlength] at hlength'
  cases hlength'

end MessageRouter
