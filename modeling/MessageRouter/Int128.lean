/-!
# `Int128` — the integers that a simulated contract computes with

* `Int128`: an integer of 128 bits in two's complement.
* `Int128.ofInt?`: the integer of a value in range, none outside.
* `add?`, `sub?`, `mul?`, `neg?`: exact, none where the result is out of range.
* bitwise operations, which never leave the range.

The powers of two that bound a range are those of the core library in every module, whatever other powers are in
scope there.
-/

attribute [instance (high), default_instance (20000)] instPowNat

namespace MessageRouter

/-- An integer of 128 bits in two's complement. -/
structure Int128 where
  bits : BitVec 128
  deriving DecidableEq, Repr

namespace Int128

/-- The value of an integer. -/
def toInt (i : Int128) : Int := i.bits.toInt

/-- The values that 128 bits hold. -/
def InRange (i : Int) : Prop := -2 ^ 127 ≤ i ∧ i < 2 ^ 127

instance (i : Int) : Decidable (InRange i) := inferInstanceAs (Decidable (_ ∧ _))

/-- Every integer is in range. -/
theorem inRange_toInt (i : Int128) : InRange i.toInt :=
  ⟨BitVec.le_toInt i.bits, BitVec.toInt_lt⟩

/-- The integer of a value in range. -/
@[irreducible] def ofInt? (i : Int) : Option Int128 := if InRange i then some ⟨BitVec.ofInt 128 i⟩ else none

theorem toInt_ofInt {i : Int} (h : InRange i) : (⟨BitVec.ofInt 128 i⟩ : Int128).toInt = i := by
  obtain ⟨hlow, hhigh⟩ := h
  simp only [toInt, BitVec.toInt_ofInt]
  rw [Int.bmod_eq_of_le] <;> omega

/-- The integer that is found has the value, and one is found for every value in range. -/
theorem ofInt?_eq_some_iff {i : Int} {n : Int128} :
    ofInt? i = some n ↔ InRange i ∧ n.toInt = i := by
  unfold ofInt?
  constructor
  · intro h
    split at h
    · next hi => exact ⟨hi, Option.some.inj h ▸ toInt_ofInt hi⟩
    · exact nomatch h
  · rintro ⟨hi, hn⟩
    rw [if_pos hi]
    have hbits : BitVec.ofInt 128 i = n.bits := by
      apply BitVec.eq_of_toInt_eq
      exact (toInt_ofInt hi).trans hn.symm
    rw [hbits]

instance : Zero Int128 := ⟨⟨0⟩⟩

/-- A natural number below `2 ^ 127`. -/
def ofNat (n : Nat) : Int128 := ⟨BitVec.ofNat 128 n⟩

theorem toInt_ofNat {n : Nat} (h : n < 2 ^ 127) : (ofNat n).toInt = n := by
  simp only [toInt, ofNat, BitVec.toInt_ofNat']
  rw [Int.bmod_eq_of_le] <;> omega

/-- An integer of 64 bits. -/
def ofInt64 (i : Int64) : Int128 := ⟨BitVec.ofInt 128 i.toInt⟩

/-! ## Arithmetic -/

def add? (a b : Int128) : Option Int128 := ofInt? (a.toInt + b.toInt)

def sub? (a b : Int128) : Option Int128 := ofInt? (a.toInt - b.toInt)

def mul? (a b : Int128) : Option Int128 := ofInt? (a.toInt * b.toInt)

def neg? (a : Int128) : Option Int128 := ofInt? (-a.toInt)

/-! ## Bitwise operations -/

def and (a b : Int128) : Int128 := ⟨a.bits &&& b.bits⟩

def or (a b : Int128) : Int128 := ⟨a.bits ||| b.bits⟩

/-- All bits turned over: `-i - 1`. -/
def not (a : Int128) : Int128 := ⟨~~~a.bits⟩

end Int128
end MessageRouter
