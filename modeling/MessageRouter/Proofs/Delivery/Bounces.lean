import MessageRouter.Proofs.Delivery.Messages
/-!
# `Proofs.Delivery.Bounces` — bounced messages reach the receiver of their type

* `Cell.bounce`: what comes back of a message.
* `IsLongestWithin`: the longest beginning of some fields that is sure to fit some bits.
* `Simulator.rule_bounce`: a message that bounced is for the receiver of bounces of its type.
* `Simulator.deliver_bounce`: a receiver of what is sure to be kept always runs with just that; a receiver of
  the whole message runs if nothing was cut off, and ends early if something was.
-/
namespace MessageRouter

open Simulator

/-- What comes back of a message: a marker and the first bits of the message. -/
def Cell.bounce (marker : UInt32) (cell : Cell) : Cell :=
  .mk (Bits.ofNat bounceMarkerBits marker.toNat ++ cell.bits.take bouncedBits) []

/-! ## The fields that are kept -/

/-- The longest beginning of some fields whose widths sum to at most `room`. -/
structure IsLongestWithin (room : Nat) (fields kept : List Field) : Prop where
  isPrefix : kept <+: fields
  fits : totalBits kept ≤ room
  longest : ∀ other, other <+: fields → totalBits other ≤ room → other <+: kept

/-- A beginning that fits is a beginning of the longest one. -/
theorem prefix_fieldsWithin {room : Nat} {fields other : List Field} (h : other <+: fields)
    (hroom : totalBits other ≤ room) : other <+: fieldsWithin room fields := by
  induction fields generalizing room other with
  | nil =>
    obtain rfl := List.prefix_nil.mp h
    exact List.nil_prefix
  | cons f fields ih =>
    cases other with
    | nil => exact List.nil_prefix
    | cons g other =>
      obtain ⟨rfl, hrest⟩ := List.cons_prefix_cons.mp h
      rw [totalBits] at hroom
      have hfirst : g.type.maxBits ≤ room := by omega
      rw [fieldsWithin, if_pos hfirst]
      exact List.cons_prefix_cons.mpr ⟨rfl, ih hrest (by omega)⟩

theorem isLongestWithin_keptFields (fields : List Field) :
    IsLongestWithin 224 fields (keptFields fields) where
  isPrefix := keptFields_prefix fields
  fits := totalBits_fieldsWithin_le _ fields
  longest _ := prefix_fieldsWithin

namespace Codec

/-- The bits of fields, as many as their first ones have at most, are enough to read these. -/
theorem AreWires.decodeEntries_take {fields kept : List Field} {values : Record}
    {entries : List (String × Value)} {bits : List Bool} (h : AreWires fields entries bits)
    (hpicks : values.Picks fields ⟨entries⟩) (hkept : kept <+: fields) {room : Nat}
    (hroom : totalBits kept ≤ room) (refs : List Cell) :
    ∃ entries' t, values.Picks kept ⟨entries'⟩ ∧
      Codec.decodeEntries kept ⟨bits.take room, refs⟩ = .ok entries' t := by
  obtain ⟨bits₁, bits₂, rfl, hread⟩ := h.areRead.exists_take kept.length
  rw [← List.prefix_iff_eq_take.mp hkept] at hread
  have hlength : bits₁.length ≤ room := Nat.le_trans hread.length_le hroom
  refine ⟨entries.take kept.length, ⟨bits₂.take (room - bits₁.length), refs⟩, ?_, ?_⟩
  · have htake := List.forall₂_take kept.length hpicks
    rwa [← List.prefix_iff_eq_take.mp hkept] at htake
  · rw [List.take_append, List.take_of_length_le hlength]
    exact decodeEntries_eq_ok_iff.mpr ⟨bits₁, hread, rfl⟩

end Codec

namespace Contract

variable {c : Contract} {registry : Registry} {s : Slice} {r : Receiver}

/-! ## Who takes a bounced message -/

/-- The slot of a receiver of bounces of a message type is that of the type's opcode. -/
theorem slot_bounced {name binding : String} {isPartial : Bool} {l : Layout}
    (hs : r.selector = .bounced name binding isPartial) (hl : registry.layout name = .ok l) :
    r.selector.slot registry = .ok (some (.opcode true l.header.value)) := by
  rw [hs, Selector.slot, hl]
  rfl

/-- Whoever takes a bounced message of an opcode has the slot of that opcode. -/
theorem slot_of_takeBounced {got : Except Exit Received}
    (h : takeBounced registry s r = some got) :
    ∃ value : UInt32, value.toNat = s.opcode ∧
      r.selector.slot registry = .ok (some (.opcode true value)) := by
  obtain ⟨name, binding, isPartial, l, hs, hl, hop, -⟩ := takeBounced_eq_some h
  exact ⟨l.header.value, hop, slot_bounced hs hl⟩

/-- A receiver of bounces of a message type takes those of its opcode. -/
theorem takeBounced_bounced {name binding : String} {isPartial : Bool} {l : Layout}
    (hs : r.selector = .bounced name binding isPartial) (hl : registry.layout name = .ok l)
    (hop : s.opcode = l.header.value.toNat) :
    takeBounced registry s r = some ((readLayout l isPartial s).map .struct) := by
  unfold takeBounced
  simp only [hs, hl]
  rw [if_pos hop.symm]

/-- Whoever takes a bounced message of an opcode, seen after the marker, gets it before all others. -/
theorem rule_of_first_takeBounced {i : Nat} (hmem : (r, i) ∈ c.receiversFor .internal)
    (hbounce : r.selector.isBounce = true) {marker : UInt32} {bits : List Bool}
    {x : Except Exit (Selection Nat)}
    (h : first (takeBounced registry ⟨bits, []⟩) (c.receiversFor .internal) = some x) :
    c.rule registry .internal (.mk (Bits.ofNat bounceMarkerBits marker.toNat ++ bits) []) true = x := by
  have hany : (c.receiversFor .internal).any (·.1.selector.isBounce) = true :=
    List.any_eq_true.mpr ⟨(r, i), hmem, hbounce⟩
  have hlength : bounceMarkerBits ≤ (Bits.ofNat bounceMarkerBits marker.toNat ++ bits).length := by
    rw [List.length_append, Bits.length_ofNat]
    exact Nat.le_add_right _ _
  have hdrop : Slice.drop ⟨Bits.ofNat bounceMarkerBits marker.toNat ++ bits, []⟩ bounceMarkerBits =
      ⟨bits, []⟩ := by
    rw [Slice.drop, List.drop_left' (Bits.length_ofNat _ _)]
  rw [rule, if_pos ⟨rfl, rfl⟩, bouncedRule, if_pos hany]
  show (if bounceMarkerBits ≤ (Bits.ofNat bounceMarkerBits marker.toNat ++ bits).length then _
    else _) = x
  rw [if_pos hlength, Slice.ofCell, Cell.bits_mk, Cell.refs_mk, hdrop, h]
  rfl

end Contract

namespace Simulator

variable {c : Contract} {registry : Registry} {sim : Simulator} {i : Nat} {r : Receiver}
  {name binding : String} {isPartial : Bool} {l : Layout}

/-- A message keeps its opcode and 224 bits of what follows it when it bounces. -/
theorem take_ofNat_append (value : UInt32) (rest : List Bool) :
    (Bits.ofNat opcodeBits value.toNat ++ rest).take 256 =
      Bits.ofNat opcodeBits value.toNat ++ rest.take 224 := by
  have hopcode : (Bits.ofNat opcodeBits value.toNat).length = 32 := Bits.length_ofNat _ _
  rw [List.take_append, hopcode, List.take_of_length_le (by omega)]

/-- A message that bounced is for the receiver of bounces of its type, whatever can be read of it. -/
theorem rule_bounce (h : ofContract c registry = .ok sim) (hr : c.receivers[i]? = some r)
    (hselector : r.selector = .bounced name binding isPartial) (hl : registry.layout name = .ok l)
    (marker : UInt32) (rest : List Bool) :
    c.rule registry .internal
        (.mk (Bits.ofNat bounceMarkerBits marker.toNat ++
          (Bits.ofNat opcodeBits l.header.value.toNat ++ rest)) []) true =
      (readLayout l isPartial ⟨Bits.ofNat opcodeBits l.header.value.toNat ++ rest, []⟩).map
        fun message => .call i (.struct message) := by
  have hmem : (r, i) ∈ c.receiversFor .internal :=
    Contract.mem_receiversFor hr (by rw [hselector]; rfl)
  have hslots := checkSlots_of_mem h hmem
  have hop := opcode_ofNat l.header.value rest []
  have htake := Contract.takeBounced_bounced hselector hl hop
  have hfirst := Contract.first_eq_of_least hmem htake ?_
  · rw [Contract.rule_of_first_takeBounced hmem (by rw [hselector]; rfl) hfirst]
    cases readLayout l isPartial _ <;> rfl
  · -- nobody else has the slot of the opcode
    intro r' j hr' hlt
    by_contra hsome
    obtain ⟨got, hgot⟩ := Option.ne_none_iff_exists'.mp hsome
    obtain ⟨value, hvalue, hslot⟩ := Contract.slot_of_takeBounced hgot
    have heq : value = l.header.value := UInt32.toNat_inj.mp (hvalue.trans hop)
    rw [heq] at hslot
    injection Contract.eq_of_slot_eq hslots hr' hmem hslot
      (Contract.slot_bounced hselector hl) with _ hindex
    omega

/-- A message that is written and bounces selects the receiver of bounces of its type. If that one asks for what is
sure to be kept, it runs with the values of the longest beginning of the fields that takes at most 224 bits. If it
asks for the whole message, it runs with all values if nothing was cut off, and ends with exit code 9 if something
was. -/
theorem deliver_bounce (h : ofContract c registry = .ok sim) (hr : c.receivers[i]? = some r)
    (hselector : r.selector = .bounced name binding isPartial) (hl : registry.layout name = .ok l)
    {values : Record} {cell : Cell} (hcell : Codec.encode l.message values = .ok cell)
    (marker : UInt32) (state : Record) :
    (sim.select .internal (cell.bounce marker) true).map (Selection.map (·.receiver)) =
        (readLayout l isPartial ⟨cell.bits.take 256, []⟩).map
          (fun message => .call i (.struct message)) ∧
      (isPartial = true → ∃ kept payload, IsLongestWithin 224 l.message.fields kept ∧
        values.Picks kept payload ∧
        c.RunsReceiver registry state i (.struct payload)
          (sim.deliver .internal state (cell.bounce marker) true)) ∧
      (isPartial = false → cell.bits.length ≤ 256 → ∃ payload,
        values.Picks l.message.fields payload ∧
        c.RunsReceiver registry state i (.struct payload)
          (sim.deliver .internal state (cell.bounce marker) true)) ∧
      (isPartial = false → 256 < cell.bits.length →
        ∃ e, sim.deliver .internal state (cell.bounce marker) true = .error e ∧ e.code = 9) := by
  obtain ⟨-, hheader⟩ := Registry.layout_eq_ok_iff.mp hl
  obtain ⟨entries, bits, hwires, hpicks, rfl⟩ := Codec.encode_eq_ok hheader hcell
  have hlength := length_ofNat_append l.header.value bits
  have hbody : Cell.bounce marker (.mk (Bits.ofNat opcodeBits l.header.value.toNat ++ bits) []) =
      .mk (Bits.ofNat bounceMarkerBits marker.toNat ++
        (Bits.ofNat opcodeBits l.header.value.toNat ++ bits.take 224)) [] :=
    congrArg (fun kept => Cell.mk (Bits.ofNat bounceMarkerBits marker.toNat ++ kept) [])
      (take_ofNat_append l.header.value bits)
  have hrule := rule_bounce h hr hselector hl marker (bits.take 224)
  rw [hbody, Cell.bits_mk, take_ofNat_append]
  refine ⟨(select_eq_rule h _ _ _).trans hrule, ?_, ?_, ?_⟩
  · rintro rfl
    have hkept := isLongestWithin_keptFields l.message.fields
    obtain ⟨entries', t, hpicks', hfields⟩ :=
      hwires.decodeEntries_take hpicks hkept.isPrefix hkept.fits []
    have hread : readLayout l true ⟨Bits.ofNat opcodeBits l.header.value.toNat ++ bits.take 224, []⟩ =
        .ok ⟨entries'⟩ := readLayout_ofNat hfields
    refine ⟨keptFields l.message.fields, ⟨entries'⟩, hkept, hpicks', deliver_runsReceiver h state ?_⟩
    rw [hrule, hread]
    rfl
  · rintro rfl hshort
    rw [hlength] at hshort
    have hread : readLayout l false ⟨Bits.ofNat opcodeBits l.header.value.toNat ++ bits, []⟩ =
        .ok ⟨entries⟩ := readLayout_ofNat hwires.decodeEntries_self
    refine ⟨⟨entries⟩, hpicks, deliver_runsReceiver h state ?_⟩
    rw [hrule, List.take_of_length_le (by omega), hread]
    rfl
  · rintro rfl hlong
    rw [hlength] at hlong
    have hmissing : 224 < bits.length := by omega
    obtain ⟨needed, remaining, hread⟩ : ∃ needed remaining,
        readLayout l false ⟨Bits.ofNat opcodeBits l.header.value.toNat ++ bits.take 224, []⟩ =
          .error (.codec (.cell (.underflow needed remaining))) :=
      readLayout_underflow (hwires.underflow hmissing)
    refine ⟨.codec (.cell (.underflow needed remaining)), ?_, rfl⟩
    rw [deliver_eq_bind_rule h, hrule, hread]
    rfl

/-- A deposit that bounced is delivered with both of its fields, which are sure to be kept. -/
theorem deliver_bounce_vault :
    ∃ sim cell, ofContract .vault ⟨[.deposit]⟩ = .ok sim ∧
      Codec.encode .deposit .deposit = .ok cell ∧
      ∃ kept payload, IsLongestWithin 224 Message.deposit.fields kept ∧
        Record.deposit.Picks kept payload ∧
        Contract.vault.RunsReceiver ⟨[.deposit]⟩ (Record.zeroed Contract.vault.fields) 2
          (.struct payload)
          (sim.deliver .internal (Record.zeroed Contract.vault.fields) (cell.bounce 0xffffffff)
            true) := by
  obtain ⟨sim, hsim⟩ := Contract.exists_simulator_vault
  obtain ⟨cell, hcell, -⟩ := Record.exists_cell_deposit
  have hl : Registry.layout ⟨[.deposit]⟩ "Deposit" = .ok ⟨.deposit, ⟨0, .dec⟩⟩ := rfl
  exact ⟨sim, cell, hsim, hcell, (deliver_bounce hsim rfl rfl hl hcell _ _).2.1 rfl⟩

end Simulator
end MessageRouter
