import MessageRouter.Cell.Builder
/-!
# `Proofs.Cell.Stores` — which stores succeed, and what they add

* `Bits.toInt_ofInt`: two's complement spells the integers that fit its width.
* `Bits.take_ofNat`, `Bits.take_ofInt`: the first bits of a number are those of the number without the last ones.
* `Builder.room`: how many more bits a cell has room for.
* `Builder.storeUint_eq`, `Builder.storeInt_eq`: a number that fits its width is stored as its bits.
* `Builder.storeBits_eq_ok_iff`, `Builder.storeUint_eq_ok_iff`, `Builder.storeInt_eq_ok_iff`: a store succeeds
  exactly if the number fits its width and the bits fit the cell, and adds these bits.
-/
namespace MessageRouter

/-! ## Numbers -/

namespace Bits

/-- The highest bit counts negatively. -/
theorem toInt_cons (b : Bool) (bits : List Bool) :
    toInt (b :: bits) = toNat (b :: bits) - if b then 2 ^ (bits.length + 1) else 0 := by
  cases b with
  | true => rfl
  | false =>
    show (toNat (false :: bits) : Int) = _
    simp

/-- An integer fits a width exactly if it is in the range of its two's complement. -/
theorem fitsSigned_succ_iff {value : Int} {width : Nat} :
    Builder.fitsSigned value (width + 1) = true ↔ -2 ^ width ≤ value ∧ value < 2 ^ width := by
  have hpos : (0 : Int) < 2 ^ width := Int.pow_pos (by decide)
  have hlow := Int.le_ediv_iff_mul_le (a := -1) (b := value) hpos
  have hhigh := Int.ediv_lt_iff_lt_mul (a := value) (b := 1) hpos
  show (decide (value >>> width = 0) || decide (value >>> width = -1)) = true ↔ _
  rw [Int.shiftRight_eq_div_pow, Bool.or_eq_true, decide_eq_true_iff, decide_eq_true_iff]
  push_cast
  constructor
  · intro h
    have hquotient : -1 ≤ value / 2 ^ width ∧ value / 2 ^ width < 1 := by omega
    have := hlow.mp hquotient.1
    have := hhigh.mp hquotient.2
    omega
  · rintro ⟨h, h'⟩
    have := hlow.mpr (by omega)
    have := hhigh.mpr (by omega)
    omega

/-- An integer fits a width exactly if its double is in the range of one bit more. -/
theorem fitsSigned_iff (value : Int) (width : Nat) :
    Builder.fitsSigned value width = true ↔ -2 ^ width ≤ 2 * value ∧ 2 * value < 2 ^ width := by
  cases width with
  | zero =>
    rw [Builder.fitsSigned, decide_eq_true_iff]
    omega
  | succ width =>
    have hpow : (2 : Int) ^ (width + 1) = 2 * 2 ^ width := by rw [Int.pow_succ, Int.mul_comm]
    rw [fitsSigned_succ_iff, hpow]
    omega

/-- What the bits of an integer spell is the integer, if it fits their width. -/
theorem toInt_ofInt {value : Int} {width : Nat} (h : Builder.fitsSigned value width = true) :
    toInt (ofInt width value) = value := by
  cases width with
  | zero =>
    have hzero : value = 0 := by simpa [Builder.fitsSigned] using h
    subst hzero
    rfl
  | succ width =>
    obtain ⟨hlow, hhigh⟩ := fitsSigned_succ_iff.mp h
    have hpow : (2 : Int) ^ (width + 1) = 2 * 2 ^ width := by rw [Int.pow_succ, Int.mul_comm]
    have hpowNat : 2 ^ (width + 1) = 2 * 2 ^ width := by rw [Nat.pow_succ, Nat.mul_comm]
    have hcast : ((2 ^ width : Nat) : Int) = 2 ^ width := by push_cast; rfl
    have hbits (n : Nat) (hn : n < 2 ^ (width + 1)) :
        toInt (ofNat (width + 1) n) = n - if n.testBit width then 2 ^ (width + 1) else 0 := by
      have hspell : toNat (ofNat (width + 1) n) = n := by
        rw [toNat_ofNat, Nat.mod_eq_of_lt hn]
      rw [ofNat] at hspell ⊢
      rw [toInt_cons, hspell, length_ofNat]
    unfold ofInt
    by_cases hsign : 0 ≤ value
    · -- a positive integer is its own remainder, and its highest bit is not set
      have hmod : value % 2 ^ (width + 1) = value := Int.emod_eq_of_lt hsign (by omega)
      have hlt : value.toNat < 2 ^ width := by omega
      rw [hmod, hbits _ (by omega), Nat.testBit_lt_two_pow hlt]
      simp only [Bool.false_eq_true, if_false]
      omega
    · have hmod : value % 2 ^ (width + 1) = value + 2 ^ (width + 1) := by
        rw [← Int.add_emod_right]
        exact Int.emod_eq_of_lt (by omega) (by omega)
      have hle : 2 ^ width ≤ (value + 2 ^ (width + 1)).toNat := by omega
      have hlt : (value + 2 ^ (width + 1)).toNat < 2 ^ (width + 1) := by omega
      rw [hmod, hbits _ hlt, Nat.testBit_of_two_pow_le_and_two_pow_add_one_gt hle hlt]
      simp only [if_true]
      omega

/-- The first bits of a number are those of the number without the last ones. -/
theorem take_ofNat (first rest value : Nat) :
    (ofNat (first + rest) value).take first = ofNat first (value >>> rest) := by
  induction first with
  | zero => rw [List.take_zero, ofNat]
  | succ first ih =>
    have hwidth : first + 1 + rest = first + rest + 1 := by omega
    rw [hwidth, ofNat, ofNat, List.take_succ_cons, ih, Nat.testBit_shiftRight, Nat.add_comm rest]

/-- A remainder without its last bits is the remainder of what is without them. -/
theorem emod_shiftRight (value : Int) (first rest : Nat) :
    (value % 2 ^ (first + rest)) >>> rest = (value >>> rest) % 2 ^ first := by
  have hpos : (0 : Int) < 2 ^ rest := Int.pow_pos (by decide)
  have hpow : (2 : Int) ^ (first + rest) = 2 ^ rest * 2 ^ first := by
    rw [Int.pow_add, Int.mul_comm]
  have hcast : ((2 ^ rest : Nat) : Int) = 2 ^ rest := by push_cast; rfl
  rw [Int.shiftRight_eq_div_pow, Int.shiftRight_eq_div_pow, hcast, hpow, Int.emod_def,
    Int.emod_def (value / 2 ^ rest), Int.ediv_ediv_of_nonneg (Int.le_of_lt hpos), Int.mul_assoc,
    Int.sub_mul_ediv_left _ _ (Int.ne_of_gt hpos)]

/-- The first bits in two's complement are those of the integer without the last ones. -/
theorem take_ofInt (first rest : Nat) (value : Int) :
    (ofInt (first + rest) value).take first = ofInt first (value >>> rest) := by
  have hnonneg : 0 ≤ value % 2 ^ (first + rest) :=
    Int.emod_nonneg _ (Int.ne_of_gt (Int.pow_pos (by decide)))
  rw [ofInt, ofInt, take_ofNat, ← emod_shiftRight]
  congr 1
  obtain ⟨n, hn⟩ := Int.eq_ofNat_of_zero_le hnonneg
  rw [hn]
  rfl

end Bits

/-! ## Stores -/

namespace Builder

/-- How many more bits a cell has room for. -/
def room (b : Builder) : Nat := Cell.maxBits - b.bits.length

/-- A builder with some more bits. -/
def append (b : Builder) (bits : List Bool) : Builder := { b with bits := b.bits ++ bits }

theorem append_append (b : Builder) (bits bits' : List Bool) :
    (b.append bits).append bits' = b.append (bits ++ bits') := by
  simp only [append, List.append_assoc]

@[simp] theorem append_nil (b : Builder) : b.append [] = b := by
  simp only [append, List.append_nil]

theorem room_append (b : Builder) (bits : List Bool) :
    (b.append bits).room = b.room - bits.length := by
  simp only [room, append, List.length_append, Nat.sub_add_eq]

variable {b b' : Builder}

/-- Bits are stored exactly if there is room for all of them. -/
theorem storeBits_eq_ok_iff {bits : List Bool} :
    storeBits bits b = .ok () b' ↔ bits.length ≤ b.room ∧ b' = b.append bits := by
  unfold storeBits
  show (if bits.length ≤ b.room then _ else _) = _ ↔ _
  by_cases hroom : bits.length ≤ b.room
  · rw [if_pos hroom]
    constructor
    · intro h
      injection h with _ hb
      exact ⟨hroom, hb.symm⟩
    · rintro ⟨-, rfl⟩
      rfl
  · rw [if_neg hroom]
    constructor
    · intro h
      cases h
    · rintro ⟨hroom', -⟩
      exact absurd hroom' hroom

/-- A store of more bits than a cell holds depends on no more than one bit too many. -/
theorem storeBits_take {bits : List Bool} (h : Cell.maxBits < bits.length) :
    storeBits (bits.take (Cell.maxBits + 1)) = storeBits bits := by
  funext b
  have hlength : (bits.take (Cell.maxBits + 1)).length = Cell.maxBits + 1 := by
    rw [List.length_take]
    omega
  have htake : (bits.take (Cell.maxBits + 1)).take (Cell.maxBits - b.bits.length) =
      bits.take (Cell.maxBits - b.bits.length) := by
    rw [List.take_take]
    congr 1
    omega
  unfold storeBits
  simp only
  rw [if_neg (by omega), if_neg (by omega), htake]

/-- What is clipped from a number are bits that no cell has room for. -/
theorem storeBits_clip {α : Type} [HShiftRight α Nat α] {toBits : Nat → α → List Bool}
    (hlength : ∀ width value, (toBits width value).length = width)
    (htake : ∀ first rest value, (toBits (first + rest) value).take first = toBits first (value >>> rest))
    (value : α) (width : Nat) :
    storeBits (toBits (clip value width).2 (clip value width).1) = storeBits (toBits width value) := by
  unfold clip
  split
  · rfl
  · next hwide =>
    have hsplit : width = Cell.maxBits + 1 + (width - (Cell.maxBits + 1)) := by omega
    have hfirst := htake (Cell.maxBits + 1) (width - (Cell.maxBits + 1)) value
    rw [← hsplit] at hfirst
    rw [← hfirst, storeBits_take (by rw [hlength]; omega)]

/-- A number that fits its width is stored as its bits. -/
theorem storeUint_eq (value width : Nat) :
    storeUint value width =
      if value < 2 ^ width then storeBits (Bits.ofNat width value)
      else throw (.unsignedRange value width) := by
  have hfits : value >>> width = 0 ↔ value < 2 ^ width := by
    rw [Nat.shiftRight_eq_div_pow]
    exact Nat.div_eq_zero_iff_lt (Nat.two_pow_pos width)
  have hclip := storeBits_clip Bits.length_ofNat Bits.take_ofNat value width
  simp only [storeUint, hfits, hclip]

/-- An integer that fits its width is stored as its bits in two's complement. -/
theorem storeInt_eq (value : Int) (width : Nat) :
    storeInt value width =
      if fitsSigned value width then storeBits (Bits.ofInt width value)
      else throw (.signedRange value width) := by
  have hclip := storeBits_clip Bits.length_ofInt Bits.take_ofInt value width
  simp only [storeInt, hclip]

/-- A number is stored exactly if it fits its width and there is room for it. -/
theorem storeUint_eq_ok_iff {value width : Nat} :
    storeUint value width b = .ok () b' ↔
      value < 2 ^ width ∧ width ≤ b.room ∧ b' = b.append (Bits.ofNat width value) := by
  rw [storeUint_eq]
  by_cases hlt : value < 2 ^ width
  · rw [if_pos hlt, storeBits_eq_ok_iff, Bits.length_ofNat]
    exact (and_iff_right hlt).symm
  · rw [if_neg hlt]
    constructor
    · intro h
      cases h
    · rintro ⟨hlt', -⟩
      exact absurd hlt' hlt

/-- An integer is stored exactly if it fits its width and there is room for it. -/
theorem storeInt_eq_ok_iff {value : Int} {width : Nat} :
    storeInt value width b = .ok () b' ↔
      fitsSigned value width = true ∧ width ≤ b.room ∧ b' = b.append (Bits.ofInt width value) := by
  rw [storeInt_eq]
  by_cases hfits : fitsSigned value width = true
  · rw [if_pos hfits, storeBits_eq_ok_iff, Bits.length_ofInt]
    exact (and_iff_right hfits).symm
  · rw [if_neg hfits]
    constructor
    · intro h
      cases h
    · rintro ⟨hfits', -⟩
      exact absurd hfits' hfits

end Builder
end MessageRouter
