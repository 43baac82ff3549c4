import MessageRouter.Proofs.Codec.Exactness
/-!
# `Proofs.Codec.Canonical` — messages that are read and written again

A message may be read from bits that are never written: an amount may stand behind a length of more bytes than it
takes. Written again it is as short as it can be.

* `Codec.AmountIsShortest`, `Codec.AmountsAreShortest`: the amounts in some bits have no byte too many.
* `Codec.IsRead.exists_isWire`, `Codec.AreRead.exists_areWires`: what is read can be written, in as many bits or fewer.
* `Codec.encode_of_decode`: so it is with a whole message, and the bits are the same exactly if all amounts were
  shortest.
-/
namespace MessageRouter

/-! ## Numbers -/

namespace Bits

/-- Bits spell an integer that fits their width. -/
theorem fitsSigned_toInt (bits : List Bool) : Builder.fitsSigned (toInt bits) bits.length = true := by
  cases bits with
  | nil => rfl
  | cons b rest =>
    have hrest := toNat_lt rest
    rw [List.length_cons, fitsSigned_succ_iff, toInt_cons, toNat_cons, Int.pow_succ]
    have hcast : ((2 ^ rest.length : Nat) : Int) = 2 ^ rest.length := by push_cast; rfl
    cases b <;> simp <;> omega

/-- Bits are those of the integer they spell. -/
theorem ofInt_toInt (bits : List Bool) : ofInt bits.length (toInt bits) = bits := by
  have hlt : (toNat bits : Int) < 2 ^ bits.length := by exact_mod_cast toNat_lt bits
  have hmod : toInt bits % 2 ^ bits.length = toNat bits := by
    cases bits with
    | nil => rfl
    | cons b rest =>
      have hself := Int.emod_eq_of_lt (Int.natCast_nonneg (toNat (b :: rest))) hlt
      cases b with
      | false => exact hself
      | true =>
        rw [toInt_cons, if_pos rfl, ← List.length_cons, Int.sub_emod_right]
        exact hself
  rw [ofInt, hmod, Int.toNat_natCast, ofNat_toNat]

end Bits

namespace Codec

/-! ## Amounts -/

/-- How many bits at the front of some others are read as a value of a type. -/
def frontLength (t : FieldType) (bits : List Bool) : Nat :=
  match t with
  | .bool => 1
  | .int width | .uint width => width
  | .coins => FieldType.coinsLengthBits + 8 * Bits.toNat (bits.take FieldType.coinsLengthBits)

/-- The amount at the front of some bits stands behind the smallest number of bytes that hold it. -/
def AmountIsShortest (bits : List Bool) : Prop :=
  let count := Bits.toNat (bits.take FieldType.coinsLengthBits)
  let amount := Bits.toNat ((bits.drop FieldType.coinsLengthBits).take (8 * count))
  ∀ n, amount < 2 ^ (8 * n) → count ≤ n

/-- So do all amounts among the values of some fields at the front of some bits. -/
def AmountsAreShortest : List Field → List Bool → Prop
  | [], _ => True
  | f :: rest, bits =>
    (f.type = .coins → AmountIsShortest bits) ∧
      AmountsAreShortest rest (bits.drop (frontLength f.type bits))

/-! ## Writing again -/

/-- What is read as a value is in front of what follows it. -/
theorem IsRead.frontLength_eq {t : FieldType} {v : Value} {bits : List Bool} (h : IsRead t v bits)
    (rest : List Bool) : frontLength t (bits ++ rest) = bits.length := by
  cases h with
  | bool | int | uint => rfl
  | coins hcount hlength hi =>
    rw [frontLength, List.append_assoc, List.take_left' hcount, List.length_append, hcount, hlength]

/-- An amount that is read takes at most as many bytes as its length says, and exactly as many if it is shortest. -/
theorem byteLength_of_count {count amount : List Bool} (hcount : count.length = FieldType.coinsLengthBits)
    (hlength : amount.length = 8 * Bits.toNat count) (rest : List Bool) :
    byteLength (Bits.toNat amount) ≤ Bits.toNat count ∧
      (byteLength (Bits.toNat amount) = Bits.toNat count ↔
        AmountIsShortest (count ++ amount ++ rest)) := by
  have hle : byteLength (Bits.toNat amount) ≤ Bits.toNat count := by
    rw [byteLength_le_iff, ← hlength]
    exact Bits.toNat_lt amount
  refine ⟨hle, ?_⟩
  unfold AmountIsShortest
  dsimp only
  rw [List.append_assoc, List.take_left' hcount, List.drop_left' hcount, List.take_left' hlength]
  constructor
  · intro heq n hn
    rw [← heq]
    exact byteLength_le_iff.mpr hn
  · intro hshortest
    exact Nat.le_antisymm hle (hshortest _ (byteLength_le_iff.mp (Nat.le_refl _)))

/-- A value that is read can be written, in as many bits or fewer. The bits are the same unless it is an amount with
a byte too many. -/
theorem IsRead.exists_isWire {t : FieldType} {v : Value} {bits : List Bool} (h : IsRead t v bits) :
    ∃ bits', IsWire t v bits' ∧ bits'.length ≤ bits.length ∧
      ∀ rest, bits' = bits ↔ (t = .coins → AmountIsShortest (bits ++ rest)) := by
  cases h with
  | bool b => exact ⟨[b], .bool b, Nat.le_refl _, fun _ => iff_of_true rfl nofun⟩
  | @int i bits hi =>
    -- as many bits as before are written, so they spell the integer in the same way
    have hwire : IsWire (.int bits.length) (.int i) (Bits.ofInt bits.length i.toInt) :=
      .int (hi ▸ Bits.fitsSigned_toInt bits)
    rw [hi, Bits.ofInt_toInt] at hwire
    exact ⟨bits, hwire, Nat.le_refl _, fun _ => iff_of_true rfl nofun⟩
  | @uint i bits hi =>
    have hnat : i.toInt.toNat = Bits.toNat bits := by rw [hi, Int.toNat_natCast]
    have hwire : IsWire (.uint bits.length) (.int i) (Bits.ofNat bits.length i.toInt.toNat) :=
      .uint (by omega) (hnat ▸ Bits.toNat_lt bits)
    rw [hnat, Bits.ofNat_toNat] at hwire
    exact ⟨bits, hwire, Nat.le_refl _, fun _ => iff_of_true rfl nofun⟩
  | @coins i count amount hcount hlength hi =>
    have hnat : i.toInt.toNat = Bits.toNat amount := by rw [hi, Int.toNat_natCast]
    have hlt := Bits.toNat_lt count
    rw [hcount] at hlt
    have hle := (byteLength_of_count hcount hlength []).1
    have hmax : byteLength (Bits.toNat amount) ≤ FieldType.maxCoinsBytes :=
      Nat.le_of_lt_succ (Nat.lt_of_le_of_lt hle hlt)
    refine ⟨_, .coins (by omega) (hnat ▸ hmax), ?_, fun rest => ?_⟩
    · rw [hnat, List.length_append, List.length_append, Bits.length_ofNat, Bits.length_ofNat, hcount,
        hlength]
      omega
    · -- both sides say that the length in front is the number of bytes that the amount takes
      rw [hnat, forall_prop_of_true rfl, ← (byteLength_of_count hcount hlength rest).2]
      constructor
      · intro heq
        have hfirst := (List.append_inj heq (by rw [Bits.length_ofNat, hcount])).1
        rw [← hfirst, Bits.toNat_ofNat, Nat.mod_eq_of_lt (Nat.lt_of_le_of_lt hle hlt)]
      · intro heq
        rw [heq, ← hcount, Bits.ofNat_toNat, Nat.mul_comm, ← hlength, Bits.ofNat_toNat]

/-- Values of fields that are read can be written, in as many bits or fewer. -/
theorem AreRead.exists_areWires {fields : List Field} {entries : List (String × Value)}
    {bits : List Bool} (h : AreRead fields entries bits) :
    ∃ bits', AreWires fields entries bits' ∧ bits'.length ≤ bits.length ∧
      ∀ rest, bits' = bits ↔ AmountsAreShortest fields (bits ++ rest) := by
  induction h with
  | nil => exact ⟨[], .nil, Nat.le_refl _, fun _ => iff_of_true rfl trivial⟩
  | @cons f v front fields entries back hfirst _ ih =>
    obtain ⟨front', hwire, hle, hfront⟩ := hfirst.exists_isWire
    obtain ⟨back', hwires, hle', hback⟩ := ih
    refine ⟨front' ++ back', .cons hwire hwires, ?_, fun rest => ?_⟩
    · rw [List.length_append, List.length_append]
      omega
    · rw [AmountsAreShortest, List.append_assoc, hfirst.frontLength_eq, List.drop_left, ← hfront, ← hback]
      constructor
      · intro heq
        have hlength := congrArg List.length heq
        rw [List.length_append, List.length_append] at hlength
        exact List.append_inj heq (by omega)
      · rintro ⟨rfl, rfl⟩
        rfl

/-! ## Records -/

variable {fields : List Field} {entries : List (String × Value)} {bits : List Bool}

/-- What is read has the names of the fields. -/
theorem AreRead.names_eq (h : AreRead fields entries bits) :
    entries.map (·.1) = fields.map (·.name) := by
  induction h with
  | nil => rfl
  | cons _ _ ih => rw [List.map_cons, List.map_cons, ih]

/-- A record that has what is read has it for the fields. -/
theorem AreRead.picks {values : Record} (h : AreRead fields entries bits)
    (hget : ∀ e ∈ entries, values.get? e.1 = some e.2) : values.Picks fields ⟨entries⟩ := by
  induction h with
  | nil => exact .nil
  | cons _ _ ih =>
    obtain ⟨hfirst, hrest⟩ := List.forall_mem_cons.mp hget
    exact .cons ⟨rfl, hfirst⟩ (ih hrest)

/-! ## Messages -/

/-- A message that was read from a cell, with no two fields of one name, can be written again. That takes no more bits
than were read, and these bits are read as the same record to their end. They are the bits that were read exactly
if no amount among those stood behind a byte too many. -/
theorem encode_of_decode {l : Layout} (hheader : l.message.header = some l.header)
    (hnames : (l.message.fields.map (·.name)).Nodup) {s t : Slice} (hs : s.remaining ≤ Cell.maxBits)
    {r : Record} (h : decode l false s = .ok r t) :
    ∃ k cell, k ≤ s.remaining ∧ t = s.drop k ∧
      encode l.message r = .ok cell ∧ cell.bits.length ≤ k ∧
      decode l false (.ofCell cell) = .ok r ⟨[], []⟩ ∧
      (cell.bits = s.bits.take k ↔ AmountsAreShortest l.message.fields (s.bits.drop opcodeBits)) := by
  -- the opcode is always written as it was read, so all turns on the bits of the values
  obtain ⟨bits, hread, rfl⟩ := areRead_of_decode h
  obtain ⟨bits', hwires, hle, hsame⟩ := hread.exists_areWires
  have hpicks : r.Picks l.message.fields ⟨r.entries⟩ :=
    hread.picks fun e he => Record.get?_of_mem (hread.names_eq ▸ hnames) he
  have hopcode : (Bits.ofNat opcodeBits l.header.value.toNat).length = opcodeBits := Bits.length_ofNat _ _
  have hlength : (Bits.ofNat opcodeBits l.header.value.toNat ++ bits).length = opcodeBits + bits.length := by
    rw [List.length_append, hopcode]
  rw [Slice.remaining, List.length_append, hlength] at hs
  refine ⟨opcodeBits + bits.length, .mk (Bits.ofNat opcodeBits l.header.value.toNat ++ bits') [],
    ?_, ?_, (encode_eq_ok_iff hheader).mpr ⟨_, _, hwires, hpicks, by omega, rfl⟩, ?_,
    decode_of_areWires hwires, ?_⟩
  · rw [Slice.remaining, List.length_append, hlength]
    omega
  · rw [Slice.drop, List.drop_left' hlength]
  · rw [Cell.bits_mk, List.length_append, hopcode]
    omega
  · rw [Cell.bits_mk, List.take_left' hlength, List.append_assoc, List.drop_left' hopcode, ← hsame]
    exact List.append_right_inj _

end Codec

/-! ## An amount with a byte too many -/

/-- A message of one amount. -/
def Message.payment : Message := ⟨"Payment", some ⟨7, .hex⟩, [⟨"amount", .coins⟩]⟩

/-- The bits of a payment of 5 in two bytes, and a bit more. -/
def Slice.longPayment : Slice :=
  ⟨Bits.ofNat 32 7 ++ Bits.ofNat 4 2 ++ Bits.ofNat 16 5 ++ [true], []⟩

namespace Codec

/-- It is read, and written again it has other bits. -/
theorem encode_of_decode_longPayment :
    (Message.payment.fields.map (·.name)).Nodup ∧ Slice.longPayment.remaining ≤ Cell.maxBits ∧
      decode ⟨.payment, ⟨7, .hex⟩⟩ false .longPayment =
        .ok ⟨[("amount", .int (.ofNat 5))]⟩ ⟨[true], []⟩ ∧
      ∃ cell, encode .payment ⟨[("amount", .int (.ofNat 5))]⟩ = .ok cell ∧
        cell.bits ≠ Slice.longPayment.bits.take 52 := by
  have hnames : (Message.payment.fields.map (·.name)).Nodup := by decide
  have hs : Slice.longPayment.remaining ≤ Cell.maxBits := by decide
  have hread : decode ⟨.payment, ⟨7, .hex⟩⟩ false .longPayment =
      .ok ⟨[("amount", .int (.ofNat 5))]⟩ ⟨[true], []⟩ := by with_unfolding_all rfl
  have hlong : ¬AmountsAreShortest Message.payment.fields (Slice.longPayment.bits.drop opcodeBits) := by
    intro h
    have hone : 2 ≤ 1 := h.1 rfl 1 (by decide)
    omega
  obtain ⟨k, cell, hk, hend, hcell, -, -, hsame⟩ := encode_of_decode rfl hnames hs hread
  refine ⟨hnames, hs, hread, cell, hcell, fun heq => hlong (hsame.mp ?_)⟩
  -- one bit of 53 is left
  obtain rfl : k = 52 := by
    have hleft := congrArg Slice.remaining hend
    rw [Slice.remaining, Slice.remaining, Slice.drop, List.length_drop] at hleft
    have htotal : Slice.longPayment.bits.length = 53 := rfl
    rw [htotal] at hleft
    change 1 = 53 - k at hleft
    omega
  exact heq

end Codec
end MessageRouter
