import MessageRouter.Proofs.Delivery.RoundTrip
/-!
# `Proofs.Codec.Exactness` — which messages can be written, and that they are read back

* `FieldType.Fits`, `FieldType.bitsOf`: the values of a type, and how many bits each takes.
* `Record.bitsOf`: how many bits the values of some fields take.
* `Codec.exists_isWire_iff`, `Codec.exists_areWires_iff`: exactly these values can be written.
* `Codec.exists_encode_iff`: a message can be written exactly if its values are of their types and a cell has room
  for them, and what is written is read back to its end.
-/
namespace MessageRouter

/-! ## Values and their widths -/

namespace FieldType

/-- The values of a type: they are of its kind and in its range. -/
def Fits : FieldType → Value → Prop
  | bool, .bool _ => True
  | int width, .int i => -2 ^ (width - 1) ≤ i.toInt ∧ i.toInt < 2 ^ (width - 1)
  | uint width, .int i => 0 ≤ i.toInt ∧ i.toInt < 2 ^ width
  | coins, .int i => 0 ≤ i.toInt ∧ i.toInt < 2 ^ 120
  | _, _ => False

/-- How many bits a value of a type takes; only an amount decides for itself. -/
def bitsOf : FieldType → Value → Nat
  | bool, _ => 1
  | int width, _ | uint width, _ => width
  | coins, .int i => coinsLengthBits + 8 * Codec.byteLength i.toInt.toNat
  | coins, _ => 0

end FieldType

/-- How many bits the values of some fields take. -/
def Record.bitsOf (values : Record) : List Field → Nat
  | [] => 0
  | f :: rest => ((values.get? f.name).map f.type.bitsOf).getD 0 + values.bitsOf rest

namespace Codec

/-- Exactly the values of a type can be written. -/
theorem exists_isWire_iff {t : FieldType} (ht : t.IsInRange) {v : Value} :
    (∃ bits, IsWire t v bits) ↔ t.Fits v := by
  constructor
  · rintro ⟨bits, h⟩
    cases h with
    | bool b => trivial
    | @int width i hfits =>
      obtain ⟨n, rfl⟩ := Nat.exists_eq_add_one.mpr ht.1
      exact Bits.fitsSigned_succ_iff.mp hfits
    | @uint width i hsign hfits =>
      refine ⟨hsign, ?_⟩
      rw [← Int.toNat_of_nonneg hsign]
      exact_mod_cast hfits
    | @coins i hsign hlength =>
      have hfits : i.toInt.toNat < 2 ^ 120 := byteLength_le_iff.mp hlength
      exact ⟨hsign, by omega⟩
  · intro h
    -- a value of another kind is none of the type
    cases t with
    | bool =>
      cases v with
      | bool b => exact ⟨_, .bool b⟩
      | int | slice => exact h.elim
    | int width =>
      cases v with
      | int i =>
        obtain ⟨n, rfl⟩ := Nat.exists_eq_add_one.mpr ht.1
        exact ⟨_, .int (Bits.fitsSigned_succ_iff.mpr h)⟩
      | bool | slice => exact h.elim
    | uint width =>
      cases v with
      | int i =>
        obtain ⟨hsign, hfits⟩ := h
        rw [← Int.toNat_of_nonneg hsign] at hfits
        exact ⟨_, .uint hsign (by exact_mod_cast hfits)⟩
      | bool | slice => exact h.elim
    | coins =>
      cases v with
      | int i =>
        obtain ⟨hsign, hfits⟩ := h
        have hlength : byteLength i.toInt.toNat ≤ FieldType.maxCoinsBytes :=
          byteLength_le_iff.mpr (show i.toInt.toNat < 2 ^ 120 by omega)
        exact ⟨_, .coins hsign hlength⟩
      | bool | slice => exact h.elim

/-- A value has as many bits as it takes. -/
theorem IsWire.length_eq {t : FieldType} {v : Value} {bits : List Bool} (h : IsWire t v bits) :
    bits.length = t.bitsOf v := by
  cases h with
  | bool b => rfl
  | int => exact Bits.length_ofInt _ _
  | uint => exact Bits.length_ofNat _ _
  | coins =>
    rw [List.length_append, Bits.length_ofNat, Bits.length_ofNat, Nat.mul_comm]
    rfl

/-! ## Fields -/

variable {values : Record} {fields : List Field} {entries : List (String × Value)} {bits : List Bool}

/-- Exactly records with a value of its type for each field can be written. -/
theorem exists_areWires_iff (hrange : ∀ f ∈ fields, f.type.IsInRange) :
    (∃ entries bits, AreWires fields entries bits ∧ values.Picks fields ⟨entries⟩) ↔
      ∀ f ∈ fields, ∃ v, values.get? f.name = some v ∧ f.type.Fits v := by
  induction fields with
  | nil => exact ⟨fun _ => nofun, fun _ => ⟨[], [], .nil, .nil⟩⟩
  | cons f fields ih =>
    obtain ⟨hf, hrange⟩ := List.forall_mem_cons.mp hrange
    rw [List.forall_mem_cons, ← ih hrange]
    constructor
    · rintro ⟨_, _, hwires, hpicks⟩
      cases hwires with
      | @cons _ v bits _ entries bits' hfirst hrest =>
        obtain ⟨⟨-, hv⟩, hpicks⟩ := List.forall₂_cons.mp hpicks
        exact ⟨⟨v, hv, (exists_isWire_iff hf).mp ⟨bits, hfirst⟩⟩, entries, bits', hrest, hpicks⟩
    · rintro ⟨⟨v, hv, hfits⟩, entries, bits', hrest, hpicks⟩
      obtain ⟨bits, hfirst⟩ := (exists_isWire_iff hf).mpr hfits
      exact ⟨_, _, .cons hfirst hrest, .cons ⟨rfl, hv⟩ hpicks⟩

/-- The values of fields have as many bits as they take together. -/
theorem AreWires.length_eq_bitsOf (h : AreWires fields entries bits)
    (hpicks : values.Picks fields ⟨entries⟩) : bits.length = values.bitsOf fields := by
  induction h with
  | nil => rfl
  | @cons f v bits fields entries bits' hfirst _ ih =>
    obtain ⟨⟨-, hv⟩, hpicks⟩ := List.forall₂_cons.mp hpicks
    have hv' : values.get? f.name = some v := hv
    rw [List.length_append, hfirst.length_eq, ih hpicks, Record.bitsOf, hv']
    rfl

/-! ## Messages -/

/-- What was written of a message is read back to its end. -/
theorem decode_of_areWires {l : Layout} (h : AreWires l.message.fields entries bits) :
    decode l false (.ofCell (.mk (Bits.ofNat opcodeBits l.header.value.toNat ++ bits) [])) =
      .ok ⟨entries⟩ ⟨[], []⟩ := by
  rw [Slice.ofCell, Cell.bits_mk, Cell.refs_mk]
  exact decode_eq_ok_iff.mpr ⟨bits, h.areRead, by rw [List.append_nil]⟩

/-- A message with a header can be written exactly if for each of its fields there is a value of the field's type,
and if the opcode and the values fit a cell. What is written is then read back: each field in order has the value
that was written for it, and no bit is left. -/
theorem exists_encode_iff {m : Message} {header : Header} (hheader : m.header = some header)
    (hrange : ∀ f ∈ m.fields, f.type.IsInRange) (values : Record) :
    ((∃ cell, encode m values = .ok cell) ↔
        (∀ f ∈ m.fields, ∃ v, values.get? f.name = some v ∧ f.type.Fits v) ∧
          opcodeBits + values.bitsOf m.fields ≤ Cell.maxBits) ∧
      ∀ cell, encode m values = .ok cell →
        cell.bits.length = opcodeBits + values.bitsOf m.fields ∧
          ∃ r t, decode ⟨m, header⟩ false (.ofCell cell) = .ok r t ∧ values.Picks m.fields r ∧
            t.remaining = 0 := by
  constructor
  · rw [← exists_areWires_iff hrange]
    constructor
    · rintro ⟨cell, hcell⟩
      obtain ⟨entries, bits, hwires, hpicks, hroom, -⟩ := (encode_eq_ok_iff hheader).mp hcell
      rw [hwires.length_eq_bitsOf hpicks] at hroom
      exact ⟨⟨entries, bits, hwires, hpicks⟩, hroom⟩
    · rintro ⟨⟨entries, bits, hwires, hpicks⟩, hroom⟩
      rw [← hwires.length_eq_bitsOf hpicks] at hroom
      exact ⟨_, (encode_eq_ok_iff hheader).mpr ⟨entries, bits, hwires, hpicks, hroom, rfl⟩⟩
  · intro cell hcell
    obtain ⟨entries, bits, hwires, hpicks, -, rfl⟩ := (encode_eq_ok_iff hheader).mp hcell
    refine ⟨?_, ⟨entries⟩, ⟨[], []⟩, decode_of_areWires hwires, hpicks, rfl⟩
    rw [Cell.bits_mk, List.length_append, Bits.length_ofNat, hwires.length_eq_bitsOf hpicks]

end Codec

/-! ## A message of the widest fields -/

/-- A message with a field of every type, as wide as it may be. -/
def Message.widest : Message :=
  ⟨"Widest", some ⟨0xffffffff, .hex⟩,
    [⟨"low", .int 257⟩, ⟨"high", .uint 256⟩, ⟨"flag", .bool⟩, ⟨"amount", .coins⟩]⟩

/-- The values of it that are farthest from zero, in another order. -/
def Record.widest : Record :=
  ⟨[("amount", .int (.ofNat (2 ^ 120 - 1))), ("flag", .bool true), ("high", .int (.ofNat (2 ^ 127 - 1))),
    ("low", .int ⟨BitVec.ofInt 128 (-2 ^ 127)⟩)]⟩

namespace Codec

/-- These values are all read back. -/
theorem exists_encode_widest :
    (∀ f ∈ Message.widest.fields, f.type.IsInRange) ∧
      ∃ cell r t, encode .widest .widest = .ok cell ∧ cell.bits.length = 670 ∧
        decode ⟨.widest, ⟨0xffffffff, .hex⟩⟩ false (.ofCell cell) = .ok r t ∧
        Record.widest.Picks Message.widest.fields r ∧ t.remaining = 0 := by
  have hrange : ∀ f ∈ Message.widest.fields, f.type.IsInRange := by
    simp [Message.widest, FieldType.IsInRange, FieldType.maxIntWidth, FieldType.maxUintWidth]
  have hwidest := exists_encode_iff (m := .widest) rfl hrange .widest
  have hlow : (-2 ^ 256 : Int) ≤ -2 ^ 127 ∧ (-2 ^ 127 : Int) < 2 ^ 256 := by decide
  have hfits : ∀ f ∈ Message.widest.fields, ∃ v, Record.widest.get? f.name = some v ∧ f.type.Fits v := by
    refine List.forall_mem_cons.mpr ⟨⟨_, rfl, hlow⟩, List.forall_mem_cons.mpr ⟨⟨_, rfl, ?_⟩,
      List.forall_mem_cons.mpr ⟨⟨_, rfl, trivial⟩, List.forall_mem_cons.mpr ⟨⟨_, rfl, ?_⟩, nofun⟩⟩⟩⟩
    · show (0 : Int) ≤ 2 ^ 127 - 1 ∧ (2 ^ 127 - 1 : Int) < 2 ^ 256
      decide
    · show (0 : Int) ≤ 2 ^ 120 - 1 ∧ (2 ^ 120 - 1 : Int) < 2 ^ 120
      decide
  obtain ⟨cell, hcell⟩ := hwidest.1.mpr ⟨hfits, by decide⟩
  obtain ⟨hlength, r, t, hread, hpicks, hend⟩ := hwidest.2 cell hcell
  exact ⟨hrange, cell, r, t, hcell, hlength, hread, hpicks, hend⟩

end Codec
end MessageRouter
