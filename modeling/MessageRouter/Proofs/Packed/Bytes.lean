import MessageRouter.Packed.Basic
import MessageRouter.Proofs.Cell.Representation
/-!
# `Proofs.Packed.Bytes` — bytes are told by their bits

* `Bits.testBit_toNat`: the bits of the number that a bit string spells.
* `Packed.pack`: the bytes of a bit string, filled up with zeros.
* `Packed.eq_pack_iff`: bytes are those of a bit string exactly if they are as many, have its bits, and zeros behind.
* `Packed.grown_pack`, `Packed.orAt_pack_append`: another bit is room for it, and a mask if it is set.
-/
namespace MessageRouter

/-! ## Bits of a number -/

namespace Bits

/-- The bits of the number that a bit string spells are its own, the last one first. -/
theorem testBit_toNat (bits : List Bool) (k : Nat) :
    (toNat bits).testBit k = bits.reverse[k]?.getD false := by
  induction bits with
  | nil => simp
  | cons b rest ih =>
    rw [toNat_cons, Nat.mul_comm, Nat.testBit_two_pow_mul_add _ (toNat_lt rest), List.reverse_cons]
    by_cases hk : k < rest.length
    · rw [if_pos hk, ih, List.getElem?_append_left (by rwa [List.length_reverse])]
    · rw [if_neg hk, List.getElem?_append_right (by rw [List.length_reverse]; omega),
        List.length_reverse]
      rcases Nat.eq_zero_or_pos (k - rest.length) with hzero | hpos
      · rw [hzero]
        cases b <;> rfl
      · -- behind the first bit there is nothing
        have hlt : b.toNat < 2 ^ (k - rest.length) :=
          Nat.lt_of_lt_of_le (Bool.toNat_lt b) (Nat.le_self_pow (by omega) 2)
        rw [Nat.testBit_lt_two_pow hlt, List.getElem?_eq_none (by rw [List.length_singleton]; omega)]
        rfl

end Bits

namespace Packed

/-! ## Bits of a byte -/

theorem bitOf_eq_testBit (b : UInt8) {k : Nat} (hk : k < 8) : bitOf b k = b.toNat.testBit (7 - k) := by
  have hshift : (UInt8.ofNat (7 - k)).toNat % 8 = 7 - k := by
    rw [UInt8.toNat_ofNat']
    omega
  rw [bitOf, Bool.eq_iff_iff, beq_iff_eq, ← UInt8.toNat_inj, UInt8.toNat_and, UInt8.toNat_shiftRight,
    hshift, Nat.testBit_eq_decide_div_mod_eq, decide_eq_true_iff, Nat.shiftRight_eq_div_pow]
  show (b.toNat / 2 ^ (7 - k)) &&& 1 = 1 ↔ _
  rw [Nat.and_one_is_mod]

/-- Bytes of the same bits are the same. -/
theorem eq_of_bitOf_eq {a b : UInt8} (h : ∀ k < 8, bitOf a k = bitOf b k) : a = b := by
  apply UInt8.toNat_inj.mp
  apply Nat.eq_of_testBit_eq
  intro i
  by_cases hi : i < 8
  · have hk := h (7 - i) (by omega)
    rwa [bitOf_eq_testBit a (by omega), bitOf_eq_testBit b (by omega), Nat.sub_sub_self (by omega)] at hk
  · have hpow : 2 ^ 8 ≤ 2 ^ i := Nat.pow_le_pow_right (by omega) (by omega)
    rw [Nat.testBit_lt_two_pow (Nat.lt_of_lt_of_le a.toNat_lt hpow),
      Nat.testBit_lt_two_pow (Nat.lt_of_lt_of_le b.toNat_lt hpow)]

theorem bitOf_or (a b : UInt8) {k : Nat} (hk : k < 8) : bitOf (a ||| b) k = (bitOf a k || bitOf b k) := by
  simp only [bitOf_eq_testBit _ hk, UInt8.toNat_or, Nat.testBit_or]

theorem bitOf_and (a b : UInt8) {k : Nat} (hk : k < 8) : bitOf (a &&& b) k = (bitOf a k && bitOf b k) := by
  simp only [bitOf_eq_testBit _ hk, UInt8.toNat_and, Nat.testBit_and]

@[simp] theorem bitOf_zero (k : Nat) : bitOf 0 k = false := by
  simp [bitOf]

/-- A mask has the one bit that it is for. -/
theorem bitOf_mask {i k : Nat} (hi : i < 8) (hk : k < 8) : bitOf (mask i) k = decide (k = i) := by
  have h : ∀ i < 8, ∀ k < 8, bitOf (mask i) k = decide (k = i) := by decide
  exact h i hi k hk

/-- The byte of a bit string has its bits, and zeros behind. -/
theorem bitOf_byte {bits : List Bool} (h : bits.length ≤ 8) {k : Nat} (hk : k < 8) :
    bitOf (Bits.byte bits) k = bits[k]?.getD false := by
  have hlt : Bits.toNat bits <<< (8 - bits.length) < 2 ^ 8 := by
    rw [Nat.shiftLeft_eq]
    calc Bits.toNat bits * 2 ^ (8 - bits.length)
        < 2 ^ bits.length * 2 ^ (8 - bits.length) :=
          Nat.mul_lt_mul_of_pos_right (Bits.toNat_lt bits) (Nat.two_pow_pos _)
      _ = 2 ^ 8 := by rw [← Nat.pow_add, Nat.add_sub_cancel' h]
  rw [bitOf_eq_testBit _ hk, Bits.byte, UInt8.toNat_ofNat_of_lt' hlt, Nat.testBit_shiftLeft,
    Bits.testBit_toNat]
  by_cases hin : k < bits.length
  · have hplace : bits.length - 1 - (7 - k - (8 - bits.length)) = k := by omega
    rw [decide_eq_true (by omega), Bool.true_and, List.getElem?_reverse (by omega), hplace]
  · rw [decide_eq_false (by omega), Bool.false_and, List.getElem?_eq_none (by omega)]
    rfl

/-! ## Bits of bytes -/

theorem bitOrZero_mul_add (bytes : Array UInt8) (j : Nat) {k : Nat} (hk : k < 8) :
    bitOrZero bytes (8 * j + k) = bitOf (bytes[j]?.getD 0) k := by
  rw [bitOrZero]
  congr 3 <;> omega

/-- As many bytes with the same bits are the same. -/
theorem eq_of_bitOrZero_eq {xs ys : Array UInt8} (hsize : xs.size = ys.size)
    (h : ∀ i, bitOrZero xs i = bitOrZero ys i) : xs = ys := by
  apply Array.ext hsize
  intro j hx hy
  apply eq_of_bitOf_eq
  intro k hk
  have hbit := h (8 * j + k)
  rwa [bitOrZero_mul_add _ _ hk, bitOrZero_mul_add _ _ hk, Array.getElem?_eq_getElem hx,
    Array.getElem?_eq_getElem hy, Option.getD_some, Option.getD_some] at hbit

/-- A bit is found if its byte is there. -/
theorem bitAt_eq_ok {bytes : Array UInt8} {i : Nat} (h : i / 8 < bytes.size) :
    bitAt bytes i = .ok (bitOrZero bytes i) := by
  rw [bitAt, bitOrZero, Array.getElem?_eq_getElem h]
  rfl

/-- A zero byte behind others changes no bit. -/
theorem bitOrZero_push_zero (bytes : Array UInt8) (i : Nat) :
    bitOrZero (bytes.push 0) i = bitOrZero bytes i := by
  rw [bitOrZero, bitOrZero, Array.getElem?_push]
  split
  · next h => rw [h, Array.getElem?_eq_none (Nat.le_refl _)]; rfl
  · rfl

theorem bitOrZero_replicate (n i : Nat) : bitOrZero (Array.replicate n 0) i = false := by
  rw [bitOrZero, Array.getElem?_replicate]
  split <;> exact bitOf_zero _

/-- A mask sets the bit that it is for in its byte, and no other. -/
theorem exists_orAt_eq_ok {bytes : Array UInt8} {i : Nat} (h : i / 8 < bytes.size) :
    ∃ changed, orAt bytes (i / 8) (mask (i % 8)) = .ok changed ∧ changed.size = bytes.size ∧
      ∀ j, bitOrZero changed j = (bitOrZero bytes j || decide (j = i)) := by
  refine ⟨bytes.modify (i / 8) (· ||| mask (i % 8)), ?_, Array.size_modify, ?_⟩
  · rw [orAt, if_pos h]
  · intro j
    have hj : j % 8 < 8 := Nat.mod_lt _ (by omega)
    have hi : i % 8 < 8 := Nat.mod_lt _ (by omega)
    simp only [bitOrZero, Array.getElem?_modify]
    -- a bit of another byte stays as it is
    by_cases hbyte : i / 8 = j / 8
    · rw [if_pos hbyte, ← hbyte, Array.getElem?_eq_getElem h]
      show bitOf (bytes[i / 8] ||| mask (i % 8)) (j % 8) = _
      rw [bitOf_or _ _ hj, bitOf_mask hi hj, Option.getD_some]
      congr 2
      exact propext ⟨fun hplace => by omega, fun hplace => by rw [hplace]⟩
    · rw [if_neg hbyte, decide_eq_false (fun heq => hbyte (by rw [heq])), Bool.or_false]

/-! ## Bytes of a bit string -/

/-- The bytes of a bit string, filled up with zeros. -/
def pack (bits : List Bool) : Array UInt8 := (Bits.toBytes bits).toArray

@[simp] theorem size_pack (bits : List Bool) : (pack bits).size = (bits.length + 7) / 8 := by
  rw [pack, List.size_toArray, Bits.length_toBytes]

/-- The bytes of a bit string have its bits, and zeros behind. -/
theorem bitOrZero_pack (bits : List Bool) (i : Nat) : bitOrZero (pack bits) i = bits[i]?.getD false := by
  -- a first byte of some bits, with other bytes behind
  have hfirst (bits : List Bool) (hbits : bits.length ≤ 8) (rest : List UInt8) {i : Nat} (hi : i < 8) :
      bitOrZero (Bits.byte bits :: rest).toArray i = bits[i]?.getD false := by
    have h := bitOrZero_mul_add (Bits.byte bits :: rest).toArray 0 hi
    rw [Nat.mul_zero, Nat.zero_add] at h
    rw [h, List.getElem?_toArray, List.getElem?_cons_zero, Option.getD_some, bitOf_byte hbits hi]
  induction bits using Bits.toBytes.induct generalizing i with
  | case1 b₀ b₁ b₂ b₃ b₄ b₅ b₆ b₇ rest ih =>
    rw [pack, Bits.toBytes]
    by_cases hi : i < 8
    · rw [hfirst [b₀, b₁, b₂, b₃, b₄, b₅, b₆, b₇] (Nat.le_refl 8) _ hi]
      have hsame : ([b₀, b₁, b₂, b₃, b₄, b₅, b₆, b₇] ++ rest)[i]? =
          [b₀, b₁, b₂, b₃, b₄, b₅, b₆, b₇][i]? := List.getElem?_append_left hi
      exact congrArg (Option.getD · false) hsame.symm
    · -- eight bits further on is one byte further on
      obtain ⟨j, rfl⟩ : ∃ j, i = j + 8 := ⟨i - 8, by omega⟩
      have hdiv : (j + 8) / 8 = j / 8 + 1 := by omega
      rw [bitOrZero, hdiv, Nat.add_mod_right, List.getElem?_toArray, List.getElem?_cons_succ]
      have hrest := ih j
      rwa [bitOrZero, pack, List.getElem?_toArray] at hrest
  | case2 => simp [pack, Bits.toBytes, bitOrZero]
  | case3 bits hlong hnil =>
    have hlt := Bits.length_lt_of_not_full hlong
    have hbytes : Bits.toBytes bits = [Bits.byte bits] := by
      rw [Bits.toBytes]
      · exact hlong
      · exact hnil
    rw [pack, hbytes]
    by_cases hi : i < 8
    · exact hfirst bits (by omega) [] hi
    · rw [bitOrZero, List.getElem?_toArray, List.getElem?_eq_none (by rw [List.length_singleton]; omega),
        List.getElem?_eq_none (by omega)]
      exact bitOf_zero _

/-- Bytes are those of a bit string exactly if they are as many, have its bits, and zeros behind. -/
theorem eq_pack_iff {bytes : Array UInt8} {bits : List Bool} :
    bytes = pack bits ↔
      bytes.size = (bits.length + 7) / 8 ∧ ∀ i, bitOrZero bytes i = bits[i]?.getD false := by
  constructor
  · rintro rfl
    exact ⟨size_pack bits, bitOrZero_pack bits⟩
  · rintro ⟨hsize, hbits⟩
    apply eq_of_bitOrZero_eq
    · rw [hsize, size_pack]
    · intro i
      rw [hbits, bitOrZero_pack]

/-- The bits of the bytes of a bit string. -/
@[simp] theorem unpack_pack (bits : List Bool) : unpack (pack bits) bits.length = bits := by
  apply List.ext_getElem
  · rw [length_unpack]
  · intro i hi hi'
    simp only [unpack, List.getElem_map, List.getElem_range]
    rw [bitOrZero_pack, List.getElem?_eq_getElem hi', Option.getD_some]

theorem bitAt_pack {bits : List Bool} {i : Nat} (h : i < bits.length) :
    bitAt (pack bits) i = .ok bits[i] := by
  rw [bitAt_eq_ok (by rw [size_pack]; omega), bitOrZero_pack, List.getElem?_eq_getElem h,
    Option.getD_some]

/-- A bit behind the others is the only one that may change. -/
theorem getD_append_singleton (bits : List Bool) (bit : Bool) (i : Nat) :
    (bits ++ [bit])[i]?.getD false = (bits[i]?.getD false || (bit && decide (i = bits.length))) := by
  rcases Nat.lt_trichotomy i bits.length with hlt | rfl | hgt
  · rw [List.getElem?_append_left hlt, decide_eq_false (Nat.ne_of_lt hlt), Bool.and_false, Bool.or_false]
  · simp
  · rw [List.getElem?_eq_none (by simp; omega), List.getElem?_eq_none (by omega),
      decide_eq_false (Nat.ne_of_gt hgt), Bool.and_false, Bool.or_false]

/-- Room for another bit is a zero behind the others. -/
theorem grown_pack (bits : List Bool) : grown (pack bits) bits.length = pack (bits ++ [false]) := by
  apply eq_pack_iff.mpr
  rw [List.length_append, List.length_singleton]
  constructor
  · rw [grown]
    split
    · rw [Array.size_push, size_pack]
      omega
    · rw [size_pack]
      omega
  · intro i
    have hgrown : bitOrZero (grown (pack bits) bits.length) i = bits[i]?.getD false := by
      rw [← bitOrZero_pack, grown]
      split
      · exact bitOrZero_push_zero _ i
      · rfl
    rw [hgrown, getD_append_singleton, Bool.false_and, Bool.or_false]

/-- A mask in the last byte sets the last bit. -/
theorem orAt_pack_append (bits : List Bool) :
    let bytes := pack (bits ++ [false])
    orAt bytes (bytes.size - 1) (mask (bits.length % 8)) = .ok (pack (bits ++ [true])) := by
  intro bytes
  have hsize : bytes.size = bits.length / 8 + 1 := by
    rw [size_pack, List.length_append, List.length_singleton]
    omega
  have hinside : bits.length / 8 < bytes.size := by omega
  obtain ⟨changed, hchanged, hsize', hbits⟩ := exists_orAt_eq_ok hinside
  rw [hsize, Nat.add_sub_cancel, hchanged]
  apply congrArg Except.ok
  apply eq_pack_iff.mpr
  constructor
  · rw [hsize', size_pack, List.length_append, List.length_append, List.length_singleton,
      List.length_singleton]
  · intro i
    rw [hbits, bitOrZero_pack, getD_append_singleton, getD_append_singleton, Bool.false_and,
      Bool.or_false, Bool.true_and]

end Packed
end MessageRouter
