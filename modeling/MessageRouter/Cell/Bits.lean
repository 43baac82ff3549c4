import MessageRouter.Int128
/-!
# `Cell.Bits` — bit strings, numbers and bytes

* `Bits.ofNat`, `Bits.toNat`: numbers of a width, the highest bit first.
* `Bits.ofInt`, `Bits.toInt`: the same in two's complement.
* `Bits.ofBytes`, `Bits.toBytes`: bytes; a last byte that is not full is filled up with zeros.
-/
namespace MessageRouter
namespace Bits

/-! ## Numbers -/

/-- The last `width` bits of a number, the highest first. -/
def ofNat : (width value : Nat) → List Bool
  | 0, _ => []
  | width + 1, value => value.testBit width :: ofNat width value

/-- The number that a bit string spells. -/
def toNat (bits : List Bool) : Nat := bits.foldl (fun n b => 2 * n + b.toNat) 0

@[simp] theorem length_ofNat (width value : Nat) : (ofNat width value).length = width := by
  induction width with
  | zero => rfl
  | succ width ih => simp [ofNat, ih]

@[simp] theorem toNat_nil : toNat [] = 0 := rfl

theorem toNat_foldl (bits : List Bool) (n : Nat) :
    bits.foldl (fun n b => 2 * n + b.toNat) n = n * 2 ^ bits.length + toNat bits := by
  induction bits generalizing n with
  | nil => simp
  | cons b bits ih =>
    simp only [List.foldl_cons, toNat, List.length_cons]
    rw [ih, ih (2 * 0 + b.toNat), Nat.pow_succ]
    have h : (2 * n + b.toNat) * 2 ^ bits.length =
        n * (2 ^ bits.length * 2) + b.toNat * 2 ^ bits.length := by
      rw [Nat.add_mul, Nat.mul_comm 2 n, Nat.mul_assoc, Nat.mul_comm 2]
    simp only [Nat.mul_zero, Nat.zero_add]
    omega

/-- The first bit counts for the width of the others. -/
theorem toNat_cons (b : Bool) (bits : List Bool) :
    toNat (b :: bits) = b.toNat * 2 ^ bits.length + toNat bits := by
  have h := toNat_foldl bits (2 * 0 + b.toNat)
  simpa [toNat] using h

theorem toNat_append (xs ys : List Bool) :
    toNat (xs ++ ys) = toNat xs * 2 ^ ys.length + toNat ys := by
  have h := toNat_foldl ys (toNat xs)
  simpa [toNat, List.foldl_append] using h

/-- A bit string spells a number of its width. -/
theorem toNat_lt (bits : List Bool) : toNat bits < 2 ^ bits.length := by
  induction bits with
  | nil => simp
  | cons b bits ih =>
    rw [toNat_cons, List.length_cons, Nat.pow_succ]
    cases b <;> simp <;> omega

/-- What the bits of a number spell is the number, modulo its width. -/
theorem toNat_ofNat (width value : Nat) : toNat (ofNat width value) = value % 2 ^ width := by
  induction width with
  | zero => simp [ofNat, Nat.mod_one]
  | succ width ih =>
    rw [ofNat, toNat_cons, length_ofNat, ih, Nat.testBit_eq_decide_div_mod_eq, Nat.pow_succ]
    have hmod := Nat.mod_mul (x := value) (a := 2 ^ width) (b := 2)
    rw [hmod]
    rcases Nat.mod_two_eq_zero_or_one (value / 2 ^ width) with h | h <;> simp [h]
    omega

/-! ## Two's complement -/

/-- The last `width` bits of an integer in two's complement, the highest first. -/
def ofInt (width : Nat) (value : Int) : List Bool := ofNat width (value % 2 ^ width).toNat

/-- The integer that a bit string spells in two's complement. -/
def toInt (bits : List Bool) : Int :=
  match bits with
  | true :: _ => toNat bits - 2 ^ bits.length
  | _ => toNat bits

@[simp] theorem length_ofInt (width : Nat) (value : Int) : (ofInt width value).length = width := by
  simp [ofInt]

/-! ## Bytes -/

/-- Eight bits a byte, the highest first. -/
def ofBytes (bytes : List UInt8) : List Bool := bytes.flatMap fun b => ofNat 8 b.toNat

@[simp] theorem length_ofBytes (bytes : List UInt8) : (ofBytes bytes).length = 8 * bytes.length := by
  induction bytes with
  | nil => rfl
  | cons b rest ih =>
    simp only [ofBytes, List.flatMap_cons, List.length_append, length_ofNat, List.length_cons] at ih ⊢
    omega

/-- The byte of at most eight bits, filled up with zeros. -/
def byte (bits : List Bool) : UInt8 := UInt8.ofNat (toNat bits <<< (8 - bits.length))

/-- Bytes of eight bits, the last one filled up with zeros. -/
def toBytes : List Bool → List UInt8
  | b₀ :: b₁ :: b₂ :: b₃ :: b₄ :: b₅ :: b₆ :: b₇ :: rest =>
    byte [b₀, b₁, b₂, b₃, b₄, b₅, b₆, b₇] :: toBytes rest
  | [] => []
  | short => [byte short]

end Bits
end MessageRouter
