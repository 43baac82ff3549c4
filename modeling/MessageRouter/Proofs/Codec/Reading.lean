import MessageRouter.Proofs.Cell.Representation
import MessageRouter.Proofs.Delivery.Decoding
/-!
# `Proofs.Codec.Reading` — which bits are read as which values

A read takes bits off the front and looks at no others. So one relation between bits and values says both when a read
succeeds and where it ends if bits are missing, for single values and, by induction on the fields, for all of a
message. Bits that are written are among those that are read; others are read too, as an amount may stand behind a
length of more bytes than it takes.

* `Codec.load_front_eq_ok_iff`, `Codec.underflows_load_front`: a read of bits in front, and its end if they are missing.
* `Codec.IsRead`, `Codec.AreRead`: the bits that are read as a value, and as the values of some fields.
* `Codec.decodeValue_eq_ok_iff`, `Codec.decodeEntries_eq_ok_iff`: exactly such bits are read, whatever follows them.
* `Codec.IsRead.underflow`, `Codec.AreRead.underflow`: if some of them are missing, the read ends at the missing ones.
* `Codec.IsRead.length_le`, `Codec.AreRead.length_le`: values are read from no more bits than their types take.
* `Codec.AreRead.exists_take`: the first fields are read from the first bits.
* `Codec.decode_eq_ok_iff`: a message is read exactly from its opcode and from such bits.
-/
namespace MessageRouter
namespace Codec

open Fallible (stateful_bind_eq_ok_iff stateful_bind_eq_error_iff)

variable {s u : Slice} {refs : List Cell}

/-! ## Bits in front -/

/-- A look that takes bits leaves what is behind them. -/
theorem load_taking_eq_ok_iff {α : Type} {n : Nat} {look : Slice → Except Cell.Fault α} {a : α} :
    load (Slice.taking n look) s = .ok a u ↔ look s = .ok a ∧ u = s.drop n := by
  rw [Simulator.load_taking]
  cases look s with
  | error e =>
    constructor
    · intro h
      cases h
    · rintro ⟨h, -⟩
      cases h
  | ok b =>
    constructor
    · intro h
      injection h with ha hu
      exact ⟨congrArg Except.ok ha, hu.symm⟩
    · rintro ⟨h, rfl⟩
      rw [Except.ok.inj h]

/-- Bits stand in front exactly if what is left follows them. -/
theorem front_eq_ok_and_drop_iff {n : Nat} {bits : List Bool} :
    s.front n = .ok bits ∧ u = s.drop n ↔ bits.length = n ∧ s = ⟨bits ++ u.bits, u.refs⟩ := by
  constructor
  · rintro ⟨hfront, rfl⟩
    obtain ⟨hle, rfl⟩ := Slice.front_eq_ok_iff.mp hfront
    refine ⟨List.length_take_of_le hle, ?_⟩
    rw [Slice.drop, List.take_append_drop]
  · rintro ⟨rfl, rfl⟩
    rw [Slice.front_eq_ok_iff, List.take_left, List.length_append, Slice.drop, List.drop_left]
    exact ⟨⟨Nat.le_add_right _ _, rfl⟩, rfl⟩

/-- What is made of the bits in front is read exactly if they are there and something is made of them. -/
theorem load_front_eq_ok_iff {α : Type} {n : Nat} {told : List Bool → Except Cell.Fault α} {a : α} :
    load (Slice.taking n fun s => s.front n >>= told) s = .ok a u ↔
      ∃ bits, bits.length = n ∧ s = ⟨bits ++ u.bits, u.refs⟩ ∧ told bits = .ok a := by
  rw [load_taking_eq_ok_iff, Fallible.bind_eq_ok_iff]
  constructor
  · rintro ⟨⟨bits, hfront, htold⟩, hu⟩
    obtain ⟨hlength, hs⟩ := front_eq_ok_and_drop_iff.mp ⟨hfront, hu⟩
    exact ⟨bits, hlength, hs, htold⟩
  · rintro ⟨bits, hlength, hs, htold⟩
    obtain ⟨hfront, hu⟩ := front_eq_ok_and_drop_iff.mpr ⟨hlength, hs⟩
    exact ⟨⟨bits, hfront, htold⟩, hu⟩

theorem loadUint_eq_ok_iff {width n : Nat} :
    load (Slice.loadUint width) s = .ok n u ↔
      ∃ bits, bits.length = width ∧ s = ⟨bits ++ u.bits, u.refs⟩ ∧ Bits.toNat bits = n ∧ n < 2 ^ 128 := by
  refine load_front_eq_ok_iff.trans (exists_congr fun bits => and_congr_right' (and_congr_right' ?_))
  by_cases hrange : Bits.toNat bits < 2 ^ 128
  · rw [if_pos hrange]
    constructor
    · intro h
      obtain rfl := Except.ok.inj h
      exact ⟨rfl, hrange⟩
    · rintro ⟨rfl, -⟩
      rfl
  · rw [if_neg hrange]
    constructor
    · intro h
      cases h
    · rintro ⟨rfl, hrange'⟩
      exact absurd hrange' hrange

theorem loadInt_eq_ok_iff {width : Nat} {i : Int128} :
    load (Slice.loadInt width) s = .ok i u ↔
      ∃ bits, bits.length = width ∧ s = ⟨bits ++ u.bits, u.refs⟩ ∧ i.toInt = Bits.toInt bits := by
  refine load_front_eq_ok_iff.trans (exists_congr fun bits => and_congr_right' (and_congr_right' ?_))
  constructor
  · intro h
    split at h
    · next hfind => exact Except.ok.inj h ▸ (Int128.ofInt?_eq_some_iff.mp hfind).2
    · cases h
  · intro hi
    rw [Int128.ofInt?_eq_some_iff.mpr ⟨hi ▸ i.inRange_toInt, hi⟩]
    rfl

theorem loadBit_eq_ok_iff {b : Bool} :
    load Slice.loadBit s = .ok b u ↔ s = ⟨[b] ++ u.bits, u.refs⟩ := by
  rw [Slice.loadBit, load_taking_eq_ok_iff, Fallible.map_eq_ok_iff]
  constructor
  · rintro ⟨⟨bits, hfront, rfl⟩, hu⟩
    obtain ⟨hlength, hs⟩ := front_eq_ok_and_drop_iff.mp ⟨hfront, hu⟩
    obtain ⟨b, rfl⟩ := List.length_eq_one_iff.mp hlength
    cases b <;> exact hs
  · intro hs
    obtain ⟨hfront, hu⟩ := front_eq_ok_and_drop_iff.mpr ⟨List.length_singleton, hs⟩
    exact ⟨⟨[b], hfront, by cases b <;> rfl⟩, hu⟩

theorem ofUnsigned_eq_ok_iff {n : Nat} {v : Value} :
    ofUnsigned n s = .ok v u ↔ ∃ i : Int128, v = .int i ∧ i.toInt = n ∧ u = s := by
  unfold ofUnsigned
  constructor
  · intro h
    cases hfind : Int128.ofInt? n with
    | none =>
      rw [hfind] at h
      cases h
    | some i =>
      rw [hfind] at h
      injection h with hv hu
      exact ⟨i, hv.symm, (Int128.ofInt?_eq_some_iff.mp hfind).2, hu.symm⟩
  · rintro ⟨i, rfl, hi, rfl⟩
    rw [Int128.ofInt?_eq_some_iff.mpr ⟨hi ▸ i.inRange_toInt, hi⟩]
    rfl

/-! ## Missing bits -/

/-- A read that ends because bits are missing. -/
def Underflows {α : Type} (x : Decode α) (s : Slice) : Prop :=
  ∃ needed remaining t, x s = .error (.cell (.underflow needed remaining)) t

/-- If bits are missing for the first of two reads, they are missing for both. -/
theorem Underflows.bind {α β : Type} {x : Decode α} (h : Underflows x s) (f : α → Decode β) :
    Underflows (x >>= f) s := by
  obtain ⟨needed, remaining, t, hx⟩ := h
  exact ⟨needed, remaining, t, stateful_bind_eq_error_iff.mpr (.inl hx)⟩

theorem Underflows.of_ok_bind {α β : Type} {x : Decode α} {a : α} {f : α → Decode β}
    (hx : x s = .ok a u) (h : Underflows (f a) u) : Underflows (x >>= f) s := by
  obtain ⟨needed, remaining, t, hf⟩ := h
  exact ⟨needed, remaining, t, stateful_bind_eq_error_iff.mpr (.inr ⟨a, u, hx, hf⟩)⟩

/-- A read of bits in front ends at them if some are missing, whatever would be made of them. -/
theorem underflows_load_front {α : Type} {n : Nat} (told : List Bool → Except Cell.Fault α)
    (h : s.bits.length < n) : Underflows (load (Slice.taking n fun s => s.front n >>= told)) s := by
  have hfront : s.front n = .error (.underflow n s.remaining) := if_neg (Nat.not_le_of_lt h)
  refine ⟨n, s.remaining, s, ?_⟩
  rw [Simulator.load_taking, hfront]
  rfl

theorem length_take_lt {bits : List Bool} {k : Nat} (hk : k < bits.length) :
    (bits.take k).length < bits.length := by
  rw [List.length_take]
  omega

/-! ## Values -/

/-- The bits that are read as a value of a type. -/
inductive IsRead : FieldType → Value → List Bool → Prop where
  | bool (b : Bool) : IsRead .bool (.bool b) [b]
  | int {i : Int128} {bits : List Bool} (hi : i.toInt = Bits.toInt bits) :
      IsRead (.int bits.length) (.int i) bits
  | uint {i : Int128} {bits : List Bool} (hi : i.toInt = Bits.toNat bits) :
      IsRead (.uint bits.length) (.int i) bits
  | coins {i : Int128} {count amount : List Bool} (hcount : count.length = FieldType.coinsLengthBits)
      (hlength : amount.length = 8 * Bits.toNat count) (hi : i.toInt = Bits.toNat amount) :
      IsRead .coins (.int i) (count ++ amount)

/-- A length in front of an amount has four bits, so it says 15 bytes at most. -/
theorem toNat_count_le {count : List Bool} (hcount : count.length = FieldType.coinsLengthBits) :
    Bits.toNat count ≤ FieldType.maxCoinsBytes := by
  have hlt := Bits.toNat_lt count
  rw [hcount] at hlt
  exact Nat.le_of_lt_succ hlt

/-- The length in front of an amount is read, whatever follows. -/
theorem loadUint_count {count : List Bool} (hcount : count.length = FieldType.coinsLengthBits)
    (rest : List Bool) :
    load (Slice.loadUint FieldType.coinsLengthBits) ⟨count ++ rest, refs⟩ =
      .ok (Bits.toNat count) ⟨rest, refs⟩ :=
  loadUint_eq_ok_iff.mpr ⟨count, hcount, rfl, rfl, Nat.lt_of_le_of_lt (toNat_count_le hcount) (by decide)⟩

/-- A natural number that an integer of the simulation holds has at most 128 bits. -/
theorem lt_of_toInt_eq {i : Int128} {n : Nat} (h : i.toInt = n) : n < 2 ^ 128 := by
  have hrange := i.inRange_toInt.2
  omega

/-- A value is read from at most as many bits as its type says. -/
theorem IsRead.length_le {t : FieldType} {v : Value} {bits : List Bool} (h : IsRead t v bits) :
    bits.length ≤ t.maxBits := by
  cases h with
  | bool | int | uint => simp [FieldType.maxBits]
  | coins hcount hlength hi =>
    have hmax := toNat_count_le hcount
    simp only [FieldType.maxBits, List.length_append]
    omega

/-- A value is read exactly from its bits in front of what is left. -/
theorem decodeValue_eq_ok_iff {t : FieldType} {v : Value} :
    decodeValue t s = .ok v u ↔ ∃ bits, IsRead t v bits ∧ s = ⟨bits ++ u.bits, u.refs⟩ := by
  constructor
  · intro h
    cases t with
    | bool =>
      obtain ⟨b, u', hload, h⟩ := stateful_bind_eq_ok_iff.mp h
      cases h
      exact ⟨[b], .bool b, loadBit_eq_ok_iff.mp hload⟩
    | int width =>
      obtain ⟨i, u', hload, h⟩ := stateful_bind_eq_ok_iff.mp h
      cases h
      obtain ⟨bits, rfl, hs, hi⟩ := loadInt_eq_ok_iff.mp hload
      exact ⟨bits, .int hi, hs⟩
    | uint width =>
      obtain ⟨n, u', hload, h⟩ := stateful_bind_eq_ok_iff.mp h
      obtain ⟨bits, rfl, hs, rfl, -⟩ := loadUint_eq_ok_iff.mp hload
      obtain ⟨i, rfl, hi, rfl⟩ := ofUnsigned_eq_ok_iff.mp h
      exact ⟨bits, .uint hi, hs⟩
    | coins =>
      -- the length in front says how many bits the amount is read from
      obtain ⟨length, u', hload, h⟩ := stateful_bind_eq_ok_iff.mp h
      obtain ⟨n, u'', hload', h⟩ := stateful_bind_eq_ok_iff.mp h
      obtain ⟨count, hcount, rfl, rfl, -⟩ := loadUint_eq_ok_iff.mp hload
      obtain ⟨amount, hamount, hu', rfl, -⟩ := loadUint_eq_ok_iff.mp hload'
      obtain ⟨i, rfl, hi, rfl⟩ := ofUnsigned_eq_ok_iff.mp h
      refine ⟨count ++ amount, .coins hcount (by rw [hamount, Nat.mul_comm]) hi, ?_⟩
      rw [hu', List.append_assoc]
  · rintro ⟨bits, h, rfl⟩
    cases h with
    | bool b => exact stateful_bind_eq_ok_iff.mpr ⟨b, u, loadBit_eq_ok_iff.mpr rfl, rfl⟩
    | @int i _ hi =>
      exact stateful_bind_eq_ok_iff.mpr ⟨i, u, loadInt_eq_ok_iff.mpr ⟨bits, rfl, rfl, hi⟩, rfl⟩
    | @uint i _ hi =>
      have hload : load (Slice.loadUint bits.length) ⟨bits ++ u.bits, u.refs⟩ = .ok (Bits.toNat bits) u :=
        loadUint_eq_ok_iff.mpr ⟨bits, rfl, rfl, rfl, lt_of_toInt_eq hi⟩
      exact stateful_bind_eq_ok_iff.mpr ⟨_, u, hload, ofUnsigned_eq_ok_iff.mpr ⟨i, rfl, hi, rfl⟩⟩
    | @coins i count amount hcount hlength hi =>
      have hload : load (Slice.loadUint (Bits.toNat count * 8)) ⟨amount ++ u.bits, u.refs⟩ =
          .ok (Bits.toNat amount) u :=
        loadUint_eq_ok_iff.mpr ⟨amount, by rw [hlength, Nat.mul_comm], rfl, rfl, lt_of_toInt_eq hi⟩
      rw [List.append_assoc]
      refine stateful_bind_eq_ok_iff.mpr ⟨_, _, loadUint_count hcount _, ?_⟩
      exact stateful_bind_eq_ok_iff.mpr ⟨_, u, hload, ofUnsigned_eq_ok_iff.mpr ⟨i, rfl, hi, rfl⟩⟩

/-- A value of which bits are missing cannot be read. -/
theorem IsRead.underflow {t : FieldType} {v : Value} {bits : List Bool} (h : IsRead t v bits) {k : Nat}
    (hk : k < bits.length) : Underflows (decodeValue t) ⟨bits.take k, refs⟩ := by
  have hshort := length_take_lt hk
  cases h with
  | bool b =>
    obtain rfl : k = 0 := by simpa using hk
    exact ⟨1, 0, _, rfl⟩
  | int | uint => exact (underflows_load_front _ hshort).bind _
  | @coins i count amount hcount hlength hi =>
    by_cases hfirst : k < FieldType.coinsLengthBits
    · -- the length is cut off
      refine (underflows_load_front _ ?_).bind _
      exact Nat.lt_of_le_of_lt (List.length_take_le _ _) hfirst
    · -- the length is whole, and the amount is cut off
      rw [List.length_append] at hk
      rw [List.take_append, List.take_of_length_le (by omega)]
      refine Underflows.of_ok_bind (loadUint_count hcount _) (Underflows.bind ?_ _)
      apply underflows_load_front
      rw [List.length_take]
      omega

/-! ## Fields -/

/-- The bits that are read as the values of some fields. -/
inductive AreRead : List Field → List (String × Value) → List Bool → Prop where
  | nil : AreRead [] [] []
  | cons {f : Field} {v : Value} {bits : List Bool} {fields : List Field}
      {entries : List (String × Value)} {bits' : List Bool} (hfirst : IsRead f.type v bits)
      (hrest : AreRead fields entries bits') :
      AreRead (f :: fields) ((f.name, v) :: entries) (bits ++ bits')

variable {fields : List Field} {entries : List (String × Value)} {bits : List Bool}

/-- Values are read from at most as many bits as their fields say. -/
theorem AreRead.length_le (h : AreRead fields entries bits) : bits.length ≤ totalBits fields := by
  induction h with
  | nil => exact Nat.le_refl 0
  | cons hfirst _ ih =>
    have hbits := hfirst.length_le
    rw [List.length_append, totalBits]
    omega

/-- The first fields are read from the first bits. -/
theorem AreRead.exists_take (h : AreRead fields entries bits) (n : Nat) :
    ∃ bits₁ bits₂, bits = bits₁ ++ bits₂ ∧ AreRead (fields.take n) (entries.take n) bits₁ := by
  induction h generalizing n with
  | nil => exact ⟨[], [], rfl, by simpa using AreRead.nil⟩
  | @cons f v bits fields entries bits' hfirst hrest ih =>
    cases n with
    | zero => exact ⟨[], bits ++ bits', rfl, .nil⟩
    | succ n =>
      obtain ⟨bits₁, bits₂, rfl, hread⟩ := ih n
      refine ⟨bits ++ bits₁, bits₂, ?_, .cons hfirst hread⟩
      rw [List.append_assoc]

/-- Values of fields are read exactly from their bits, one after the other, in front of what is left. -/
theorem decodeEntries_eq_ok_iff :
    decodeEntries fields s = .ok entries u ↔
      ∃ bits, AreRead fields entries bits ∧ s = ⟨bits ++ u.bits, u.refs⟩ := by
  -- by induction on the fields, as each is read from where the one before it ended
  induction fields generalizing s entries with
  | nil =>
    constructor
    · intro h
      cases h
      exact ⟨[], .nil, rfl⟩
    · rintro ⟨_, h, rfl⟩
      cases h
      rfl
  | cons f fields ih =>
    constructor
    · intro h
      obtain ⟨v, u', hfirst, h⟩ := stateful_bind_eq_ok_iff.mp h
      obtain ⟨rest, u'', hrest, h⟩ := stateful_bind_eq_ok_iff.mp h
      cases h
      obtain ⟨bits, hread, rfl⟩ := decodeValue_eq_ok_iff.mp hfirst
      obtain ⟨bits', hreads, rfl⟩ := ih.mp hrest
      exact ⟨bits ++ bits', .cons hread hreads, by rw [List.append_assoc]⟩
    · rintro ⟨_, h, rfl⟩
      cases h with
      | @cons _ v bits _ entries bits' hfirst hrest =>
        rw [List.append_assoc]
        refine stateful_bind_eq_ok_iff.mpr
          ⟨v, ⟨bits' ++ u.bits, u.refs⟩, decodeValue_eq_ok_iff.mpr ⟨bits, hfirst, rfl⟩, ?_⟩
        exact stateful_bind_eq_ok_iff.mpr ⟨entries, u, ih.mpr ⟨bits', hrest, rfl⟩, rfl⟩

/-- Fields of which bits are missing cannot be read. -/
theorem AreRead.underflow (h : AreRead fields entries bits) {k : Nat} (hk : k < bits.length) :
    Underflows (decodeEntries fields) ⟨bits.take k, refs⟩ := by
  induction h generalizing k with
  | nil => cases hk
  | @cons f v bits fields entries bits' hfirst _ ih =>
    rw [List.length_append] at hk
    by_cases hcut : k < bits.length
    · rw [List.take_append_of_le_length (Nat.le_of_lt hcut)]
      exact (hfirst.underflow hcut).bind _
    · -- the first value is whole, so bits of the others are missing
      rw [List.take_append, List.take_of_length_le (Nat.le_of_not_lt hcut)]
      have hread : decodeValue f.type ⟨bits ++ bits'.take (k - bits.length), refs⟩ =
          .ok v ⟨bits'.take (k - bits.length), refs⟩ := decodeValue_eq_ok_iff.mpr ⟨bits, hfirst, rfl⟩
      exact Underflows.of_ok_bind hread ((ih (by omega)).bind _)

/-! ## Messages -/

/-- After its opcode, a message is read field by field. -/
theorem decode_ofNat (l : Layout) (isPartial : Bool) (rest : List Bool) :
    decode l isPartial ⟨Bits.ofNat opcodeBits l.header.value.toNat ++ rest, refs⟩ =
      decodeFields (l.fields isPartial) ⟨rest, refs⟩ := by
  have hlt : l.header.value.toNat < 2 ^ opcodeBits := l.header.value.toNat_lt
  have hopcode : load (Slice.loadUint opcodeBits)
      ⟨Bits.ofNat opcodeBits l.header.value.toNat ++ rest, refs⟩ =
        .ok l.header.value.toNat ⟨rest, refs⟩ := by
    refine loadUint_eq_ok_iff.mpr
      ⟨_, Bits.length_ofNat _ _, rfl, ?_, Nat.lt_trans hlt (by decide)⟩
    rw [Bits.toNat_ofNat, Nat.mod_eq_of_lt hlt]
  rw [decode, Fallible.stateful_bind_of_ok _ hopcode, if_pos rfl]

/-- A message is read exactly from its opcode and from the bits of its values. -/
theorem decode_eq_ok_iff {l : Layout} {isPartial : Bool} {r : Record} :
    decode l isPartial s = .ok r u ↔
      ∃ bits, AreRead (l.fields isPartial) r.entries bits ∧
        s = ⟨Bits.ofNat opcodeBits l.header.value.toNat ++ bits ++ u.bits, u.refs⟩ := by
  constructor
  · intro h
    obtain ⟨opcode, u', hopcode, h⟩ := stateful_bind_eq_ok_iff.mp h
    obtain ⟨front, hfront, rfl, rfl, -⟩ := loadUint_eq_ok_iff.mp hopcode
    by_cases heq : Bits.toNat front = l.header.value.toNat
    · rw [if_pos heq] at h
      obtain ⟨entries, u'', hentries, h⟩ := stateful_bind_eq_ok_iff.mp h
      cases h
      obtain ⟨bits, hread, rfl⟩ := decodeEntries_eq_ok_iff.mp hentries
      refine ⟨bits, hread, ?_⟩
      rw [← heq, ← hfront, Bits.ofNat_toNat, List.append_assoc]
    · rw [if_neg heq] at h
      cases h
  · rintro ⟨bits, hread, rfl⟩
    rw [List.append_assoc, decode_ofNat]
    exact stateful_bind_eq_ok_iff.mpr ⟨r.entries, u, decodeEntries_eq_ok_iff.mpr ⟨bits, hread, rfl⟩, rfl⟩

/-- A whole message is read from its opcode and from the bits of all its fields. -/
theorem areRead_of_decode {l : Layout} {r : Record} (h : decode l false s = .ok r u) :
    ∃ bits, AreRead l.message.fields r.entries bits ∧
      s = ⟨Bits.ofNat opcodeBits l.header.value.toNat ++ bits ++ u.bits, u.refs⟩ :=
  decode_eq_ok_iff.mp h

end Codec
end MessageRouter
