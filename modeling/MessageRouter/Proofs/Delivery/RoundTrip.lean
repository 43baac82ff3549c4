import MessageRouter.Proofs.Cell.Stores
import MessageRouter.Proofs.Codec.Reading
/-!
# `Proofs.Delivery.RoundTrip` — messages that are written and read back

* `Codec.IsWire`, `Codec.AreWires`: the bits of a value of a type, and of the values of some fields.
* `Codec.encode_eq_ok_iff`: a message that can be written is its opcode and the bits of its values, and it can be
  written exactly if a cell has room for them.
* `Codec.IsWire.isRead`, `Codec.AreWires.areRead`: these bits are among those that are read, as the same values.
-/
namespace MessageRouter
namespace Codec

/-- Another wording of the faults makes nothing succeed. -/
theorem store_eq_ok_iff {stores : Build Unit} {b b' : Builder} :
    store stores b = .ok () b' ↔ stores b = .ok () b' := by
  unfold store EStateM.adaptExcept
  cases stores b with
  | error e s => exact ⟨nofun, nofun⟩
  | ok a s =>
    constructor
    · intro h
      injection h with _ hb
      rw [hb]
    · intro h
      injection h with _ hb
      rw [hb]

/-! ## The bits of values -/

/-- The bits of a value of a type. -/
inductive IsWire : FieldType → Value → List Bool → Prop where
  | bool (b : Bool) : IsWire .bool (.bool b) [b]
  | int {width : Nat} {i : Int128} (hfits : Builder.fitsSigned i.toInt width = true) :
      IsWire (.int width) (.int i) (Bits.ofInt width i.toInt)
  | uint {width : Nat} {i : Int128} (hsign : 0 ≤ i.toInt) (hfits : i.toInt.toNat < 2 ^ width) :
      IsWire (.uint width) (.int i) (Bits.ofNat width i.toInt.toNat)
  | coins {i : Int128} (hsign : 0 ≤ i.toInt)
      (hlength : byteLength i.toInt.toNat ≤ FieldType.maxCoinsBytes) :
      IsWire .coins (.int i)
        (Bits.ofNat FieldType.coinsLengthBits (byteLength i.toInt.toNat) ++
          Bits.ofNat (byteLength i.toInt.toNat * 8) i.toInt.toNat)

/-- An amount fits the bytes that its length says. -/
theorem lt_two_pow_byteLength (n : Nat) : n < 2 ^ (byteLength n * 8) := by
  rw [Nat.mul_comm]
  exact byteLength_le_iff.mp (Nat.le_refl _)

/-- A length of at most 15 bytes fits its four bits. -/
theorem byteLength_lt {n : Nat} (h : byteLength n ≤ FieldType.maxCoinsBytes) :
    byteLength n < 2 ^ FieldType.coinsLengthBits :=
  Nat.lt_of_le_of_lt h (by decide)

theorem nonNegative_eq_ok_iff {f : Field} {i : Int128} {n : Nat} {b b' : Builder} :
    nonNegative f i b = .ok n b' ↔ 0 ≤ i.toInt ∧ n = i.toInt.toNat ∧ b' = b := by
  unfold nonNegative
  by_cases hsign : 0 ≤ i.toInt
  · rw [if_pos hsign]
    constructor
    · intro h
      injection h with hn hb
      exact ⟨hsign, hn.symm, hb.symm⟩
    · rintro ⟨-, rfl, rfl⟩
      rfl
  · rw [if_neg hsign]
    constructor
    · intro h
      cases h
    · rintro ⟨hsign', -⟩
      exact absurd hsign' hsign

/-- A value that can be written adds its bits, for which there is room. -/
theorem isWire_of_encodeField {f : Field} {v : Value} {b b' : Builder}
    (h : encodeField f v b = .ok () b') :
    ∃ bits, IsWire f.type v bits ∧ bits.length ≤ b.room ∧ b' = b.append bits := by
  obtain ⟨name, type⟩ := f
  cases type with
  | bool =>
    cases v with
    | bool bit => exact ⟨_, .bool bit, Builder.storeBits_eq_ok_iff.mp (store_eq_ok_iff.mp h)⟩
    | int | slice => cases h
  | int width =>
    cases v with
    | int i =>
      obtain ⟨hfits, hroom, hb⟩ := Builder.storeInt_eq_ok_iff.mp (store_eq_ok_iff.mp h)
      exact ⟨_, .int hfits, by rwa [Bits.length_ofInt], hb⟩
    | bool | slice => cases h
  | uint width =>
    cases v with
    | int i =>
      obtain ⟨n, b₁, hn, hstore⟩ := Fallible.stateful_bind_eq_ok_iff.mp h
      obtain ⟨hsign, rfl, rfl⟩ := nonNegative_eq_ok_iff.mp hn
      obtain ⟨hfits, hroom, hb⟩ := Builder.storeUint_eq_ok_iff.mp (store_eq_ok_iff.mp hstore)
      exact ⟨_, .uint hsign hfits, by rwa [Bits.length_ofNat], hb⟩
    | bool | slice => cases h
  | coins =>
    cases v with
    | int i =>
      obtain ⟨n, b₁, hn, hcoins⟩ := Fallible.stateful_bind_eq_ok_iff.mp h
      obtain ⟨hsign, rfl, rfl⟩ := nonNegative_eq_ok_iff.mp hn
      -- an amount is written behind the number of its bytes
      unfold encodeCoins at hcoins
      by_cases hlength : FieldType.maxCoinsBytes < byteLength i.toInt.toNat
      · rw [if_pos hlength] at hcoins
        cases hcoins
      · rw [if_neg hlength] at hcoins
        obtain ⟨_, b₂, hcount, hamount⟩ := Fallible.stateful_bind_eq_ok_iff.mp hcoins
        obtain ⟨-, hroom, rfl⟩ := Builder.storeUint_eq_ok_iff.mp (store_eq_ok_iff.mp hcount)
        obtain ⟨-, hroom', rfl⟩ := Builder.storeUint_eq_ok_iff.mp (store_eq_ok_iff.mp hamount)
        refine ⟨_, .coins hsign (Nat.le_of_not_lt hlength), ?_, Builder.append_append _ _ _⟩
        rw [Builder.room_append, Bits.length_ofNat] at hroom'
        rw [List.length_append, Bits.length_ofNat, Bits.length_ofNat]
        omega
    | bool | slice => cases h

/-- A value whose bits there is room for can be written. -/
theorem IsWire.encodeField {f : Field} {v : Value} {bits : List Bool} (h : IsWire f.type v bits)
    {b : Builder} (hroom : bits.length ≤ b.room) :
    Codec.encodeField f v b = .ok () (b.append bits) := by
  obtain ⟨name, type⟩ := f
  cases h with
  | bool bit => exact store_eq_ok_iff.mpr (Builder.storeBits_eq_ok_iff.mpr ⟨hroom, rfl⟩)
  | int hfits =>
    rw [Bits.length_ofInt] at hroom
    exact store_eq_ok_iff.mpr (Builder.storeInt_eq_ok_iff.mpr ⟨hfits, hroom, rfl⟩)
  | uint hsign hfits =>
    rw [Bits.length_ofNat] at hroom
    refine Fallible.stateful_bind_eq_ok_iff.mpr ⟨_, b, nonNegative_eq_ok_iff.mpr ⟨hsign, rfl, rfl⟩, ?_⟩
    exact store_eq_ok_iff.mpr (Builder.storeUint_eq_ok_iff.mpr ⟨hfits, hroom, rfl⟩)
  | @coins i hsign hlength =>
    rw [List.length_append, Bits.length_ofNat, Bits.length_ofNat] at hroom
    have hcount := byteLength_lt hlength
    have hfits := lt_two_pow_byteLength i.toInt.toNat
    refine Fallible.stateful_bind_eq_ok_iff.mpr ⟨_, b, nonNegative_eq_ok_iff.mpr ⟨hsign, rfl, rfl⟩, ?_⟩
    show encodeCoins name i.toInt.toNat b = _
    unfold encodeCoins
    rw [if_neg (Nat.not_lt_of_le hlength), ← Builder.append_append]
    refine Fallible.stateful_bind_eq_ok_iff.mpr ⟨(), _,
      store_eq_ok_iff.mpr (Builder.storeUint_eq_ok_iff.mpr ⟨hcount, ?_, rfl⟩),
      store_eq_ok_iff.mpr (Builder.storeUint_eq_ok_iff.mpr ⟨hfits, ?_, rfl⟩)⟩
    · omega
    · rw [Builder.room_append, Bits.length_ofNat]
      omega

/-- The bits that are written are read as the value. -/
theorem IsWire.isRead {t : FieldType} {v : Value} {bits : List Bool} (h : IsWire t v bits) :
    IsRead t v bits := by
  cases h with
  | bool b => exact .bool b
  | @int width i hfits =>
    have hread : IsRead (.int (Bits.ofInt width i.toInt).length) (.int i) (Bits.ofInt width i.toInt) :=
      .int (Bits.toInt_ofInt hfits).symm
    rwa [Bits.length_ofInt] at hread
  | @uint width i hsign hfits =>
    have hread : IsRead (.uint (Bits.ofNat width i.toInt.toNat).length) (.int i)
        (Bits.ofNat width i.toInt.toNat) :=
      .uint (by rw [Bits.toNat_ofNat, Nat.mod_eq_of_lt hfits, Int.toNat_of_nonneg hsign])
    rwa [Bits.length_ofNat] at hread
  | @coins i hsign hlength =>
    have hcount := byteLength_lt hlength
    have hfits := lt_two_pow_byteLength i.toInt.toNat
    refine .coins (Bits.length_ofNat _ _) ?_ ?_
    · rw [Bits.length_ofNat, Bits.toNat_ofNat, Nat.mod_eq_of_lt hcount, Nat.mul_comm]
    · rw [Bits.toNat_ofNat, Nat.mod_eq_of_lt hfits, Int.toNat_of_nonneg hsign]

/-! ## Fields -/

end Codec

/-- A record of the values that another has for some fields, in their order. -/
def Record.Picks (values : Record) (fields : List Field) (r : Record) : Prop :=
  List.Forall₂ (fun f e => e.1 = f.name ∧ values.get? f.name = some e.2) fields r.entries

namespace Codec

/-- The bits of the values of some fields. -/
inductive AreWires : List Field → List (String × Value) → List Bool → Prop where
  | nil : AreWires [] [] []
  | cons {f : Field} {v : Value} {bits : List Bool} {fields : List Field}
      {entries : List (String × Value)} {bits' : List Bool} (hfirst : IsWire f.type v bits)
      (hrest : AreWires fields entries bits') :
      AreWires (f :: fields) ((f.name, v) :: entries) (bits ++ bits')

variable {fields : List Field} {entries : List (String × Value)} {bits : List Bool}

/-- The bits that are written of fields are read as their values. -/
theorem AreWires.areRead (h : AreWires fields entries bits) : AreRead fields entries bits := by
  induction h with
  | nil => exact .nil
  | cons hfirst _ ih => exact .cons hfirst.isRead ih

/-- Bits with nothing behind them are read to the end. -/
theorem AreWires.decodeEntries_self (h : AreWires fields entries bits) :
    Codec.decodeEntries fields ⟨bits, []⟩ = .ok entries ⟨[], []⟩ :=
  decodeEntries_eq_ok_iff.mpr ⟨bits, h.areRead, by rw [List.append_nil]⟩

/-- Fields of which bits are missing cannot be read. -/
theorem AreWires.underflow {refs : List Cell} (h : AreWires fields entries bits) {k : Nat}
    (hk : k < bits.length) : Underflows (Codec.decodeEntries fields) ⟨bits.take k, refs⟩ :=
  h.areRead.underflow hk

/-- Fields that can be written add the bits of their values. -/
theorem areWires_of_encodeFields {name : String} {values : Record} {b b' : Builder}
    (h : encodeFields name values fields b = .ok () b') :
    ∃ entries bits, AreWires fields entries bits ∧ values.Picks fields ⟨entries⟩ ∧
      bits.length ≤ b.room ∧ b' = b.append bits := by
  induction fields generalizing b with
  | nil =>
    injection h with _ hb
    exact ⟨[], [], .nil, .nil, Nat.zero_le _, by rw [Builder.append_nil, hb]⟩
  | cons f fields ih =>
    rw [encodeFields] at h
    cases hv : values.get? f.name with
    | none =>
      rw [hv] at h
      cases h
    | some v =>
      rw [hv] at h
      obtain ⟨_, b₁, hfirst, hrest⟩ := Fallible.stateful_bind_eq_ok_iff.mp h
      obtain ⟨bits, hwire, hroom, rfl⟩ := isWire_of_encodeField hfirst
      obtain ⟨entries, bits', hwires, hpicks, hroom', rfl⟩ := ih hrest
      refine ⟨(f.name, v) :: entries, bits ++ bits', .cons hwire hwires, ?_, ?_, ?_⟩
      · exact .cons ⟨rfl, hv⟩ hpicks
      · rw [Builder.room_append] at hroom'
        rw [List.length_append]
        omega
      · exact Builder.append_append b bits bits'

/-- Fields can be written if there is room for the bits of their values. -/
theorem AreWires.encodeFields {name : String} {values : Record} (h : AreWires fields entries bits)
    (hpicks : values.Picks fields ⟨entries⟩) {b : Builder} (hroom : bits.length ≤ b.room) :
    Codec.encodeFields name values fields b = .ok () (b.append bits) := by
  induction h generalizing b with
  | nil => rw [Builder.append_nil]; rfl
  | @cons f v bits fields entries bits' hfirst _ ih =>
    obtain ⟨⟨-, hv⟩, hpicks⟩ := List.forall₂_cons.mp hpicks
    rw [List.length_append] at hroom
    rw [Codec.encodeFields, hv, ← Builder.append_append]
    refine Fallible.stateful_bind_eq_ok_iff.mpr ⟨(), _, hfirst.encodeField (by omega), ih hpicks ?_⟩
    rw [Builder.room_append]
    omega

/-! ## Messages -/

/-- A message with a header can be written exactly if there are values for its fields and a cell has room for their
bits after the opcode. -/
theorem encode_eq_ok_iff {m : Message} {values : Record} {header : Header} {cell : Cell}
    (hheader : m.header = some header) :
    encode m values = .ok cell ↔
      ∃ entries bits, AreWires m.fields entries bits ∧ values.Picks m.fields ⟨entries⟩ ∧
        opcodeBits + bits.length ≤ Cell.maxBits ∧
        cell = .mk (Bits.ofNat opcodeBits header.value.toNat ++ bits) [] := by
  -- the opcode always fits an empty cell, so all turns on the fields
  have hopcode : encodeHeader m.header Builder.empty =
      .ok () (Builder.empty.append (Bits.ofNat opcodeBits header.value.toNat)) := by
    rw [hheader]
    refine store_eq_ok_iff.mpr (Builder.storeUint_eq_ok_iff.mpr ⟨header.value.toNat_lt, ?_, rfl⟩)
    decide
  have hroom : (Builder.empty.append (Bits.ofNat opcodeBits header.value.toNat)).room =
      Cell.maxBits - opcodeBits := by
    rw [Builder.room_append, Bits.length_ofNat]
    rfl
  have hfits : opcodeBits ≤ Cell.maxBits := by decide
  unfold encode
  constructor
  · intro h
    cases hstores : (stores m values).run Builder.empty with
    | error e b =>
      rw [hstores] at h
      cases h
    | ok a b =>
      rw [hstores] at h
      obtain rfl := Except.ok.inj h
      obtain ⟨_, b₁, hfirst, hfields⟩ := Fallible.stateful_bind_eq_ok_iff.mp hstores
      obtain rfl : Builder.empty.append (Bits.ofNat opcodeBits header.value.toNat) = b₁ := by
        rw [hopcode] at hfirst
        injection hfirst
      obtain ⟨entries, bits, hwires, hpicks, hbits, rfl⟩ := areWires_of_encodeFields hfields
      exact ⟨entries, bits, hwires, hpicks, by omega, rfl⟩
  · rintro ⟨entries, bits, hwires, hpicks, hbits, rfl⟩
    have hstores : (stores m values).run Builder.empty = .ok () _ :=
      Fallible.stateful_bind_eq_ok_iff.mpr
        ⟨(), _, hopcode, hwires.encodeFields hpicks (b := Builder.empty.append _) (by omega)⟩
    rw [hstores]
    rfl

/-- A message with a header that can be written is its opcode and then the bits of its values. -/
theorem encode_eq_ok {m : Message} {values : Record} {header : Header} {cell : Cell}
    (hheader : m.header = some header) (h : encode m values = .ok cell) :
    ∃ entries bits, AreWires m.fields entries bits ∧ values.Picks m.fields ⟨entries⟩ ∧
      cell = .mk (Bits.ofNat opcodeBits header.value.toNat ++ bits) [] := by
  obtain ⟨entries, bits, hwires, hpicks, -, hcell⟩ := (encode_eq_ok_iff hheader).mp h
  exact ⟨entries, bits, hwires, hpicks, hcell⟩

end Codec

namespace Simulator

theorem length_ofNat_append (value : UInt32) (rest : List Bool) :
    (Bits.ofNat opcodeBits value.toNat ++ rest).length = 32 + rest.length := by
  rw [List.length_append, Bits.length_ofNat]
  rfl

/-- The opcode that was written in front is the opcode of the message. -/
theorem opcode_ofNat (value : UInt32) (rest : List Bool) (refs : List Cell) :
    Slice.opcode ⟨Bits.ofNat opcodeBits value.toNat ++ rest, refs⟩ = value.toNat := by
  have hlength : opcodeBits ≤ (Bits.ofNat opcodeBits value.toNat ++ rest).length := by
    rw [List.length_append, Bits.length_ofNat]
    exact Nat.le_add_right _ _
  have htake : (Bits.ofNat opcodeBits value.toNat ++ rest).take opcodeBits =
      Bits.ofNat opcodeBits value.toNat := List.take_left' (Bits.length_ofNat _ _)
  have hlt : value.toNat < 2 ^ opcodeBits := value.toNat_lt
  rw [Slice.opcode, Slice.remaining, if_pos hlength, htake, Bits.toNat_ofNat, Nat.mod_eq_of_lt hlt]

/-- The struct of a message whose fields can be read. -/
theorem readLayout_ofNat {l : Layout} {isPartial : Bool} {rest : List Bool} {refs : List Cell}
    {entries : List (String × Value)} {t : Slice}
    (h : Codec.decodeEntries (l.fields isPartial) ⟨rest, refs⟩ = .ok entries t) :
    readLayout l isPartial ⟨Bits.ofNat opcodeBits l.header.value.toNat ++ rest, refs⟩ =
      .ok ⟨entries⟩ := by
  have hfields : Codec.decodeFields (l.fields isPartial) ⟨rest, refs⟩ = .ok ⟨entries⟩ t :=
    Fallible.stateful_bind_eq_ok_iff.mpr ⟨entries, t, h, rfl⟩
  rw [readLayout, Codec.decode_ofNat, hfields]

/-- A message of whose fields bits are missing cannot be read. -/
theorem readLayout_underflow {l : Layout} {isPartial : Bool} {rest : List Bool} {refs : List Cell}
    (h : Codec.Underflows (Codec.decodeEntries (l.fields isPartial)) ⟨rest, refs⟩) :
    ∃ needed remaining,
      readLayout l isPartial ⟨Bits.ofNat opcodeBits l.header.value.toNat ++ rest, refs⟩ =
        .error (.codec (.cell (.underflow needed remaining))) := by
  obtain ⟨needed, remaining, t, hfields⟩ : Codec.Underflows (Codec.decodeFields (l.fields isPartial)) _ :=
    h.bind _
  exact ⟨needed, remaining, by rw [readLayout, Codec.decode_ofNat, hfields]⟩

end Simulator
end MessageRouter
