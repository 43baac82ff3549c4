import MessageRouter.Proofs.Delivery.Bounces
/-!
# `Proofs.Codec.Truncation` — what is read of a message that was cut off

A bounce cuts a message off behind its first 256 bits. What is read of these is a beginning of what is read of the
whole message, however its amounts were written.

* `totalBits_take_le_iff`: how many fields fit some bits for sure.
* `Codec.decode_partial_of_decode`: the fields that are sure to be kept have the values that they have in the whole.
-/
namespace MessageRouter

/-! ## The fields that are kept -/

theorem totalBits_append (fields fields' : List Field) :
    totalBits (fields ++ fields') = totalBits fields + totalBits fields' := by
  induction fields with
  | nil => simp [totalBits]
  | cons f rest ih =>
    simp only [List.cons_append, totalBits, ih]
    omega

/-- As many fields fit some bits for sure as the longest beginning that does has, and no more. -/
theorem totalBits_take_le_iff {room n : Nat} {fields : List Field} (hn : n ≤ fields.length) :
    totalBits (fields.take n) ≤ room ↔ n ≤ (fieldsWithin room fields).length := by
  constructor
  · intro h
    have hlength := (prefix_fieldsWithin (fields.take_prefix n) h).length_le
    rwa [List.length_take_of_le hn] at hlength
  · intro h
    -- what is taken is a beginning of the longest one, which fits
    have hprefix : fields.take n <+: fieldsWithin room fields := by
      refine List.prefix_of_prefix_length_le (fields.take_prefix n) ?_ ?_
      · exact fieldsWithin_prefix room fields
      · rwa [List.length_take_of_le hn]
    obtain ⟨after, hafter⟩ := hprefix
    have hfits := totalBits_fieldsWithin_le room fields
    rw [← hafter, totalBits_append] at hfits
    omega

/-- The fields that are kept are the first ones of a message. -/
theorem Layout.fields_true (l : Layout) :
    l.fields true = l.message.fields.take (l.fields true).length :=
  List.prefix_iff_eq_take.mp <| keptFields_prefix l.message.fields

/-- A receiver of a struct gets the fields of a layout, and the names of those that it does not get. -/
theorem Contract.exists_layout_of_struct {c : Contract} {registry : Registry} {index : Nat}
    {p : Procedure} (h : c.procedure registry index = .ok p) {binding name : String}
    {fields : List Field} {isPartial : Bool} {dropped : List String}
    (hpayload : p.payload = .struct binding name fields isPartial dropped) :
    ∃ l, registry.layout name = .ok l ∧ fields = l.fields isPartial ∧
      dropped = (l.message.fields.drop fields.length).map (·.name) := by
  obtain ⟨r, function, payload, -, -, hgiven, -, rfl⟩ := procedure_eq_ok h
  obtain rfl : payload = .struct binding name fields isPartial dropped := hpayload
  generalize r.selector = s at hgiven
  generalize hstruct : Payload.struct binding name fields isPartial dropped = given at hgiven
  cases payload_eq_ok_iff.mp hgiven with
  | @message _ message _ l hl | @bounced message _ _ l hl =>
    unfold Payload.ofLayout at hstruct
    injection hstruct with _ hname hfields hpartial hdropped
    subst hname hpartial hfields
    -- the message of a layout is found by its own name
    have hfound := (Registry.layout_eq_ok_iff.mp hl).1
    have hsame : l.message.name = message := by simpa using List.find?_some hfound
    exact ⟨l, hsame ▸ hl, rfl, hdropped⟩
  | empty | comment | anyComment | any | anyBounced => cases hstruct

namespace Codec

/-! ## Messages that were cut off -/

/-- What begins with a message's first 256 bits begins with its opcode and the bits of the fields that are kept. -/
theorem exists_bits_of_front {l : Layout} {s t : Slice} {r : Record} (h : decode l false s = .ok r t)
    {s' : Slice} (hfront : s.bits.take bouncedBits <+: s'.bits) :
    ∃ bits rest, AreRead (l.fields true) (r.entries.take (l.fields true).length) bits ∧
      s' = ⟨Bits.ofNat opcodeBits l.header.value.toNat ++ bits ++ rest, s'.refs⟩ := by
  obtain ⟨all, hread, rfl⟩ := areRead_of_decode h
  obtain ⟨bits, others, rfl, hkept⟩ := hread.exists_take (l.fields true).length
  rw [← l.fields_true] at hkept
  have hlength : (Bits.ofNat opcodeBits l.header.value.toNat ++ bits).length ≤ bouncedBits := by
    have hbits : bits.length ≤ bouncedBits - opcodeBits :=
      Nat.le_trans hkept.length_le (totalBits_fieldsWithin_le _ _)
    have hopcode : opcodeBits ≤ bouncedBits := by decide
    rw [List.length_append, Bits.length_ofNat]
    omega
  -- these bits are within the first 256, which the other message begins with
  have hprefix : Bits.ofNat opcodeBits l.header.value.toNat ++ bits <+: s'.bits := by
    refine List.IsPrefix.trans ?_ hfront
    refine List.prefix_take_iff.mpr ⟨?_, hlength⟩
    simp only [List.append_assoc, List.prefix_append_right_inj]
    exact List.prefix_append _ _
  obtain ⟨rest, hrest⟩ := hprefix
  exact ⟨bits, rest, hkept, by rw [hrest]⟩

/-- A message of which all fields can be read, cut off behind its first 256 bits and with anything behind these, can be
read as a bounce keeps it: each of the fields that are kept has the value that it has in the whole message. The fields
that are kept are as many of the first ones as take at most 224 bits for sure. A receiver that gets a struct gets just
these if it asks for what is sure to be kept, and all fields if not; with the names of those that it does not get they
are all fields of the message. -/
theorem decode_partial_of_decode :
    (∀ (l : Layout) (s t s' : Slice) (r : Record),
      decode l false s = .ok r t → s.bits.take 256 <+: s'.bits →
        ∃ t', decode l true s' = .ok ⟨r.entries.take (l.fields true).length⟩ t') ∧
      (∀ l : Layout, l.fields true = l.message.fields.take (l.fields true).length ∧
        ∀ n ≤ l.message.fields.length,
          totalBits (l.message.fields.take n) ≤ 224 ↔ n ≤ (l.fields true).length) ∧
      ∀ (c : Contract) (registry : Registry) (index : Nat) (p : Procedure) (binding name : String)
        (fields : List Field) (isPartial : Bool) (dropped : List String),
        c.procedure registry index = .ok p →
        p.payload = .struct binding name fields isPartial dropped →
          ∃ l, registry.layout name = .ok l ∧ fields = l.fields isPartial ∧
            fields.map (·.name) ++ dropped = l.message.fields.map (·.name) := by
  refine ⟨?_, ?_, ?_⟩
  · intro l s t s' r h hfront
    obtain ⟨bits, rest, hread, hs'⟩ := exists_bits_of_front h hfront
    exact ⟨⟨rest, s'.refs⟩, decode_eq_ok_iff.mpr ⟨bits, hread, hs'⟩⟩
  · intro l
    exact ⟨l.fields_true, fun n hn => totalBits_take_le_iff hn⟩
  · intro c registry index p binding name fields isPartial dropped h hpayload
    obtain ⟨l, hl, rfl, rfl⟩ := Contract.exists_layout_of_struct h hpayload
    refine ⟨l, hl, rfl, ?_⟩
    -- whole or partial, what the receiver gets is a beginning of the fields
    have hfirst : l.fields isPartial = l.message.fields.take (l.fields isPartial).length := by
      cases isPartial with
      | false => exact (List.take_length).symm
      | true => exact l.fields_true
    rw [← List.map_append]
    nth_rewrite 1 [hfirst]
    rw [List.take_append_drop]

end Codec

/-! ## A letter of which a bounce loses the text -/

/-- A message of an amount, a mark and a text of fixed length. -/
def Message.letter : Message :=
  ⟨"Letter", some ⟨9, .hex⟩, [⟨"amount", .coins⟩, ⟨"urgent", .bool⟩, ⟨"text", .uint 256⟩]⟩

/-- The bits of an urgent letter with an amount of 5 in two bytes. -/
def Slice.letter : Slice :=
  ⟨Bits.ofNat 32 9 ++ Bits.ofNat 4 2 ++ Bits.ofNat 16 5 ++ [true] ++ Bits.ofNat 256 77, []⟩

/-- What a bounce keeps of it, and a bit more. -/
def Slice.cutLetter : Slice := ⟨Slice.letter.bits.take 256 ++ [true], []⟩

/-- Takes letters that bounced, as far as they are sure to be kept. -/
def Contract.postbox : Contract := ⟨"Postbox", [], [⟨.bounced "Letter" "msg" true, [], none⟩]⟩

namespace Codec

set_option maxRecDepth 2000 in
/-- Of the letter that was cut off all but the text is read, and its receiver does without the text. -/
theorem decode_partial_of_decode_letter :
    ∃ r t t', decode ⟨.letter, ⟨9, .hex⟩⟩ false .letter = .ok r t ∧
      Slice.letter.bits.take 256 <+: Slice.cutLetter.bits ∧ Slice.letter.bits.length = 309 ∧
      decode ⟨.letter, ⟨9, .hex⟩⟩ true .cutLetter = .ok ⟨r.entries.take 2⟩ t' ∧
      ∃ p fields, Contract.postbox.procedure ⟨[.letter]⟩ 0 = .ok p ∧
        p.payload = .struct "msg" "Letter" fields true ["text"] ∧
        fields.map (·.name) ++ ["text"] = ["amount", "urgent", "text"] := by
  obtain ⟨hdecode, -, hreceiver⟩ := decode_partial_of_decode
  obtain ⟨r, t, hread⟩ : ∃ r t, decode ⟨.letter, ⟨9, .hex⟩⟩ false .letter = .ok r t :=
    ⟨_, _, by with_unfolding_all rfl⟩
  have hfront : Slice.letter.bits.take 256 <+: Slice.cutLetter.bits := List.prefix_append _ _
  obtain ⟨t', hcut⟩ := hdecode _ _ _ _ _ hread hfront
  obtain ⟨p, hp, hpayload⟩ : ∃ p, Contract.postbox.procedure ⟨[.letter]⟩ 0 = .ok p ∧
      p.payload = .struct "msg" "Letter" [⟨"amount", .coins⟩, ⟨"urgent", .bool⟩] true ["text"] :=
    ⟨_, rfl, rfl⟩
  obtain ⟨l, hl, -, hnames⟩ := hreceiver _ _ _ _ _ _ _ _ _ hp hpayload
  obtain rfl : Layout.mk .letter ⟨9, .hex⟩ = l := Except.ok.inj hl
  exact ⟨r, t, t', hread, hfront, rfl, hcut, p, _, hp, hpayload, hnames⟩

end Codec
end MessageRouter
