import MessageRouter.Packed.Builder
import MessageRouter.Proofs.Cell.Stores
import MessageRouter.Proofs.Fallible
import MessageRouter.Proofs.Packed.Bytes
/-!
# `Proofs.Packed.Stores` — what stores into packed bytes leave behind

* `Packed.ofBits`, `Builder.ofBits`: the packed cell and the builder of a bit string and references.
* `forM_of_limit`: a step that adds one element while there is room, taken for each of some elements.
* `Builder.forM_storeBit`, `forM_storeRef`: bits and references, as many as fit.
* `storeUint_eq`, `storeInt_eq`, `storeBytes_eq`, `storeSlice_eq`: every store is one of bits and of references.
-/
namespace MessageRouter

/-! ## Two's complement -/

namespace Bits

/-- Two's complement goes on with the sign. -/
theorem ofInt_eq_signExtend (width : Nat) (x : BitVec 128) :
    ofInt width x.toInt = ofNat width (x.signExtend width).toNat := by
  rw [ofInt, BitVec.signExtend, BitVec.toNat_ofInt]
  push_cast
  rfl

end Bits

namespace Packed

/-! ## Bit strings and references -/

/-- The packed cell of a bit string and references. -/
def ofBits (bits : List Bool) (refs : List Packed) : Packed := .mk (pack bits) bits.length refs

@[simp] theorem bits_ofBits (bits : List Bool) (refs : List Packed) : (ofBits bits refs).bits = bits :=
  unpack_pack bits

@[simp] theorem bytes_ofBits (bits : List Bool) (refs : List Packed) :
    (ofBits bits refs).bytes = pack bits := rfl

@[simp] theorem length_ofBits (bits : List Bool) (refs : List Packed) :
    (ofBits bits refs).length = bits.length := rfl

@[simp] theorem refs_ofBits (bits : List Bool) (refs : List Packed) : (ofBits bits refs).refs = refs := rfl

/-! ## Bits of a slice -/

namespace Slice

/-- The last bits of so many are those of a bit string. -/
def ShowsLast (s : Slice) (width : Nat) (rest : List Bool) : Prop :=
  rest.length ≤ width ∧ ∀ i (h : i < rest.length), s.bit (width - rest.length + i) = .ok rest[i]

/-- The first of some bits is found, and then the others. -/
theorem ShowsLast.of_cons {s : Slice} {width : Nat} {bit : Bool} {rest : List Bool}
    (h : s.ShowsLast width (bit :: rest)) :
    s.bit (width - (rest.length + 1)) = .ok bit ∧ s.ShowsLast width rest := by
  obtain ⟨hle, hbits⟩ := h
  rw [List.length_cons] at hle
  refine ⟨hbits 0 (Nat.zero_lt_succ _), by omega, ?_⟩
  intro i hi
  have hplace : width - (bit :: rest).length + (i + 1) = width - rest.length + i := by
    rw [List.length_cons]
    omega
  have hbit := hbits (i + 1) (Nat.succ_lt_succ hi)
  rwa [hplace, List.getElem_cons_succ] at hbit

/-- The first bits that are left are those of the bit string. -/
theorem showsLast_ofBits {bits : List Bool} (refs : List Packed) {position width : Nat}
    (h : width ≤ bits.length - position) :
    ShowsLast ⟨ofBits bits refs, position⟩ width ((bits.drop position).take width) := by
  have hlength : ((bits.drop position).take width).length = width := by
    rw [List.length_take, List.length_drop]
    omega
  refine ⟨Nat.le_of_eq hlength, ?_⟩
  intro i hi
  have hlt : position + i < bits.length := by omega
  simp only [hlength, Nat.sub_self, Nat.zero_add, List.getElem_take, List.getElem_drop]
  exact bitAt_pack hlt

/-- The bits that are left are those of the bit string. -/
theorem showsLast_remaining (bits : List Bool) (refs : List Packed) (position : Nat) :
    ShowsLast ⟨ofBits bits refs, position⟩ (bits.drop position).length (bits.drop position) := by
  have hall := showsLast_ofBits refs (Nat.le_refl (bits.length - position))
  rwa [← List.length_drop, List.take_length] at hall

end Slice

namespace Builder

/-- The builder of a bit string and references. -/
def ofBits (bits : List Bool) (refs : List Packed) : Builder := ⟨pack bits, bits.length, refs⟩

@[simp] theorem bits_ofBits (bits : List Bool) (refs : List Packed) : (ofBits bits refs).bits = bits :=
  unpack_pack bits

@[simp] theorem bytes_ofBits (bits : List Bool) (refs : List Packed) :
    (ofBits bits refs).bytes = pack bits := rfl

@[simp] theorem length_ofBits (bits : List Bool) (refs : List Packed) :
    (ofBits bits refs).length = bits.length := rfl

@[simp] theorem refs_ofBits (bits : List Bool) (refs : List Packed) : (ofBits bits refs).refs = refs := rfl

@[simp] theorem cell_ofBits (bits : List Bool) (refs : List Packed) :
    (ofBits bits refs).cell = Packed.ofBits bits refs := rfl

@[simp] theorem plain_ofBits (bits : List Bool) (refs : List Packed) :
    (ofBits bits refs).plain = ⟨bits, refs.map Packed.plain⟩ := by
  rw [plain, bits_ofBits, refs_ofBits]

theorem empty_eq_ofBits : empty = ofBits [] [] := rfl

end Builder

/-! ## One element after the other -/

section Limit

variable {α ε σ : Type} {step : α → EStateM ε σ PUnit} {limit : Nat} {full : ε}

/-- A step that adds one element while there is room adds as many of some elements as there is room for. -/
theorem forM_of_limit (state : List α → σ)
    (hstep : ∀ a xs, step a (state xs) =
      if xs.length < limit then .ok () (state (xs ++ [a])) else .error full (state xs))
    (more : List α) {xs : List α} (hxs : xs.length ≤ limit) :
    (forM more step : EStateM ε σ PUnit) (state xs) =
      if xs.length + more.length ≤ limit then .ok () (state (xs ++ more))
      else .error full (state (xs ++ more.take (limit - xs.length))) := by
  induction more generalizing xs with
  | nil =>
    rw [List.length_nil, Nat.add_zero, if_pos hxs, List.append_nil]
    rfl
  | cons a more ih =>
    rw [List.forM_cons]
    by_cases hroom : xs.length < limit
    · -- the element is added, and there is room for one less
      have hstored := (hstep a xs).trans (if_pos hroom)
      have hlength : (xs ++ [a]).length = xs.length + 1 := by simp
      have hnext : (xs ++ [a]).length ≤ limit := by omega
      have hrest := ih hnext
      have hleft : limit - xs.length = limit - (xs ++ [a]).length + 1 := by omega
      have hsum : (xs ++ [a]).length + more.length = xs.length + (a :: more).length := by
        rw [hlength, List.length_cons]
        omega
      rw [hsum, List.append_assoc, List.append_assoc] at hrest
      rw [Fallible.stateful_bind_of_ok _ hstored, hrest, hleft, List.take_succ_cons]
      rfl
    · have hfull := (hstep a xs).trans (if_neg hroom)
      have hzero : limit - xs.length = 0 := by omega
      rw [Fallible.stateful_bind_of_error _ hfull, if_neg (by rw [List.length_cons]; omega), hzero,
        List.take_zero, List.append_nil]

end Limit

namespace Builder

/-! ## Bits and references -/

/-- A bit is put behind the others if there is room. -/
theorem storeBit_ofBits (bit : Bool) (bits : List Bool) (refs : List Packed) :
    storeBit bit (ofBits bits refs) =
      if bits.length < Cell.maxBits then .ok () (ofBits (bits ++ [bit]) refs)
      else .error (.fault .tooManyBits) (ofBits bits refs) := by
  by_cases hroom : bits.length < Cell.maxBits
  · have hnotfull : ¬ Cell.maxBits ≤ (ofBits bits refs).length := Nat.not_le_of_lt hroom
    rw [if_pos hroom, storeBit, if_neg hnotfull, length_ofBits, bytes_ofBits, grown_pack]
    cases bit with
    | true =>
      simp only [if_true, orAt_pack_append]
      simp [ofBits]
    | false => simp [ofBits]
  · have hfull : Cell.maxBits ≤ (ofBits bits refs).length := Nat.le_of_not_lt hroom
    rw [if_neg hroom, storeBit, if_pos hfull]

/-- Bits are put behind the others, as many as fit. -/
theorem forM_storeBit (more : List Bool) {bits : List Bool} (refs : List Packed)
    (h : bits.length ≤ Cell.maxBits) :
    (forM more storeBit : Build Unit) (ofBits bits refs) =
      if bits.length + more.length ≤ Cell.maxBits then .ok () (ofBits (bits ++ more) refs)
      else .error (.fault .tooManyBits) (ofBits (bits ++ more.take (Cell.maxBits - bits.length)) refs) :=
  forM_of_limit (ofBits · refs) (fun bit bits => storeBit_ofBits bit bits refs) more h

/-- References are put behind the others, as many as fit. -/
theorem forM_storeRef (more : List Packed) (bits : List Bool) {refs : List Packed}
    (h : refs.length ≤ Cell.maxRefs) :
    (forM more storeRef : Build Unit) (ofBits bits refs) =
      if refs.length + more.length ≤ Cell.maxRefs then .ok () (ofBits bits (refs ++ more))
      else .error (.fault .tooManyRefs) (ofBits bits (refs ++ more.take (Cell.maxRefs - refs.length))) := by
  refine forM_of_limit (ofBits bits ·) (fun c refs => ?_) more h
  by_cases hroom : refs.length < Cell.maxRefs
  · have hnotfull : ¬ Cell.maxRefs ≤ (ofBits bits refs).refs.length := Nat.not_le_of_lt hroom
    rw [if_pos hroom, storeRef, if_neg hnotfull]
    rfl
  · have hfull : Cell.maxRefs ≤ (ofBits bits refs).refs.length := Nat.le_of_not_lt hroom
    rw [if_neg hroom, storeRef, if_pos hfull]

/-! ## Numbers -/

/-- Bits that are those of a number are stored as its bits. -/
theorem storeDown_eq {bit : Nat → Bool} {width n : Nat} (h : ∀ i < width, bit i = n.testBit i) :
    storeDown bit width = forM (Bits.ofNat width n) storeBit := by
  induction width with
  | zero => rfl
  | succ width ih =>
    rw [storeDown, Bits.ofNat, List.forM_cons, h width (Nat.lt_succ_self _),
      ih fun i hi => h i (Nat.lt_succ_of_lt hi)]

/-- The last bit of a number of 128 bits. -/
theorem and_one_beq_one (x : BitVec 128) : (x &&& 1 == 1) = x.getLsbD 0 := by
  rw [Bool.eq_iff_iff, beq_iff_eq]
  constructor
  · intro h
    have hbit := congrArg (BitVec.getLsbD · 0) h
    simpa using hbit
  · intro h
    apply BitVec.eq_of_getLsbD_eq
    intro i hi
    cases i with
    | zero => simpa using h
    | succ i => simp

/-- An unsigned number of a width is stored as its bits. -/
theorem storeUint_eq (value : BitVec 128) (width : Nat) :
    storeUint value width =
      if value.toNat < 2 ^ width then forM (Bits.ofNat width value.toNat) storeBit
      else throw (.fault (.unsignedRange value.toNat width)) := by
  have hfits : (width < 128 ∧ value >>> width ≠ 0) ↔ ¬ value.toNat < 2 ^ width := by
    have hzero : value >>> width = 0 ↔ value.toNat < 2 ^ width := by
      rw [← BitVec.toNat_inj, BitVec.toNat_ushiftRight, Nat.shiftRight_eq_div_pow]
      exact Nat.div_eq_zero_iff_lt (Nat.two_pow_pos _)
    rw [ne_eq, hzero]
    constructor
    · exact And.right
    · intro hlarge
      refine ⟨?_, hlarge⟩
      apply Nat.lt_of_not_le
      intro hwide
      -- 128 bits are wide enough for every number
      have hpow : 2 ^ 128 ≤ 2 ^ width := Nat.pow_le_pow_right (by omega) hwide
      exact hlarge (Nat.lt_of_lt_of_le value.isLt hpow)
  rw [storeUint]
  by_cases hvalue : value.toNat < 2 ^ width
  · rw [if_pos hvalue, if_neg fun h => hfits.mp h hvalue]
    apply storeDown_eq
    intro i hi
    rw [and_one_beq_one, BitVec.getLsbD_ushiftRight, Nat.add_zero, BitVec.testBit_toNat]
    by_cases hin : i < 128
    · rw [decide_eq_true hin, Bool.true_and]
    · rw [BitVec.getLsbD_of_ge _ _ (by omega), Bool.and_false]
  · rw [if_neg hvalue, if_pos (hfits.mpr hvalue)]

/-- A signed number fits exactly the widths whose two's complement can hold it. -/
theorem fits_eq_fitsSigned (value : Int128) (width : Nat) :
    fits value width = MessageRouter.Builder.fitsSigned value.toInt width := by
  obtain ⟨hlow, hhigh⟩ := Int128.inRange_toInt value
  cases width with
  | zero => simp [fits, MessageRouter.Builder.fitsSigned]
  | succ width =>
    rw [Bool.eq_iff_iff, Bits.fitsSigned_succ_iff, fits, if_neg (Nat.succ_ne_zero width)]
    by_cases hwide : width + 1 ≤ 127
    · rw [if_pos hwide, Bool.and_eq_true, decide_eq_true_iff, decide_eq_true_iff, Nat.add_sub_cancel]
    · rw [if_neg hwide]
      have hpow : (2 : Int) ^ 127 ≤ 2 ^ width := by
        exact_mod_cast Nat.pow_le_pow_right (n := 2) (by omega) (by omega : 127 ≤ width)
      simp only [true_iff]
      omega

/-- A signed number of a width is stored as its bits in two's complement. -/
theorem storeInt_eq (value : Int128) (width : Nat) :
    storeInt value width =
      if MessageRouter.Builder.fitsSigned value.toInt width then
        forM (Bits.ofInt width value.toInt) storeBit
      else throw (.fault (.signedRange value.toInt width)) := by
  rw [storeInt, fits_eq_fitsSigned]
  congr 1
  rw [Int128.toInt, Bits.ofInt_eq_signExtend]
  apply storeDown_eq
  intro i hi
  rw [BitVec.testBit_toNat, BitVec.getLsbD_signExtend, decide_eq_true hi, Bool.true_and,
    and_one_beq_one, BitVec.getLsbD_sshiftRight, ← BitVec.msb_eq_toInt]
  -- from the last of the 128 bits on there is the sign
  by_cases hlast : 127 ≤ i
  · rw [if_pos hlast]
    by_cases hin : i < 128
    · obtain rfl : i = 127 := by omega
      rw [if_pos hin]
      rfl
    · rw [if_neg hin]
  · have hin : i < 128 := by omega
    rw [if_neg hlast, if_pos hin, Nat.add_zero, if_pos hin]
    rfl

/-! ## Bytes and slices -/

/-- Bytes are stored as their bits. -/
theorem storeBytes_eq (bytes : List UInt8) :
    storeBytes bytes = forM (Bits.ofBytes bytes) storeBit := by
  rw [storeBytes, List.forM_eq_forM]
  induction bytes with
  | nil => rfl
  | cons b rest ih =>
    have hsplit : Bits.ofBytes (b :: rest) = Bits.ofNat 8 b.toNat ++ Bits.ofBytes rest := rfl
    have hlt : b.toNat < 2 ^ 8 := b.toNat_lt
    have hvalue : (BitVec.ofNat 128 b.toNat).toNat = b.toNat := by
      rw [BitVec.toNat_ofNat]
      omega
    rw [List.forM_cons, ih, storeUint_eq, hvalue, if_pos hlt, hsplit, List.forM_append]

/-- The last bits of a slice are stored one after the other. -/
theorem storeRest_eq {s : Slice} {rest : List Bool} (h : s.ShowsLast s.remaining rest) :
    storeRest s rest.length = forM rest storeBit := by
  induction rest with
  | nil => rfl
  | cons bit rest ih =>
    obtain ⟨hbit, hrest⟩ := h.of_cons
    rw [List.length_cons, storeRest, hbit, ih hrest, List.forM_cons]

/-- A slice is stored as the bits that are left of it, and then its references. -/
theorem storeSlice_eq (bits : List Bool) (refs : List Packed) (position : Nat) :
    storeSlice ⟨Packed.ofBits bits refs, position⟩ =
      (forM (bits.drop position) storeBit >>= fun _ => forM refs storeRef) := by
  have hremaining : Slice.remaining ⟨Packed.ofBits bits refs, position⟩ = (bits.drop position).length :=
    List.length_drop.symm
  have hshows := Slice.showsLast_remaining bits refs position
  rw [← hremaining] at hshows
  rw [storeSlice, hremaining, storeRest_eq hshows, List.forM_eq_forM, Packed.refs_ofBits]

end Builder
end Packed
end MessageRouter
