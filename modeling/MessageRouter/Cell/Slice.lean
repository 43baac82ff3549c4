import MessageRouter.Cell.Basic
import MessageRouter.Cell.Fault
import MessageRouter.Int128
/-!
# `Cell.Slice` — cells while they are read

* `Slice`: the bits that are left, and the references, which stay.
* `Load`: reads, of which a failing one takes nothing.
* `preloadUint`, `preloadInt`: the number in front.
* `loadUint`, `loadInt`, `loadBit`, `skipBits`: the same, taking the bits.
-/
namespace MessageRouter

/-- What is left of a cell to read. -/
structure Slice where
  bits : List Bool
  refs : List Cell

/-- Reads of a slice; those before a failing one keep what they took. -/
abbrev Load := EStateM Cell.Fault Slice

namespace Slice

/-- All of a cell. -/
def ofCell (c : Cell) : Slice := ⟨c.bits, c.refs⟩

/-- What is left, as a cell. -/
def toCell (s : Slice) : Cell := .mk s.bits s.refs

@[simp] theorem toCell_ofCell (c : Cell) : (ofCell c).toCell = c := by cases c; rfl

/-- How many bits are left. -/
def remaining (s : Slice) : Nat := s.bits.length

/-- The hash of what is left. -/
def hashText (s : Slice) : String := s.toCell.hashText

/-- The bits that are left as hexadecimal text; a last byte that is not full is filled up with zeros. -/
def dataText (s : Slice) : String := Text.hexBytes (Bits.toBytes s.bits)

/-- The slice without the first `n` bits. -/
def drop (s : Slice) (n : Nat) : Slice := { s with bits := s.bits.drop n }

/-- The first `n` bits, if so many are left. -/
def front (s : Slice) (n : Nat) : Except Cell.Fault (List Bool) :=
  if n ≤ s.remaining then .ok (s.bits.take n) else .error (.underflow n s.remaining)

/-- The unsigned number in the first `width` bits; it may have 128 bits. -/
def preloadUint (s : Slice) (width : Nat) : Except Cell.Fault Nat := do
  let bits ← s.front width
  let n := Bits.toNat bits
  if n < 2 ^ 128 then return n else throw (.unsignedTooWide width)

/-- The signed number in the first `width` bits; it may have 128 bits. -/
def preloadInt (s : Slice) (width : Nat) : Except Cell.Fault Int128 := do
  let bits ← s.front width
  match Int128.ofInt? (Bits.toInt bits) with
  | some i => return i
  | none => throw (.signedTooWide width)

/-- A look at the first `n` bits that takes them if it succeeds. -/
def taking (n : Nat) (look : Slice → Except Cell.Fault α) : Load α := fun s =>
  match look s with
  | .ok a => .ok a (s.drop n)
  | .error e => .error e s

def loadUint (width : Nat) : Load Nat := taking width (preloadUint · width)

def loadInt (width : Nat) : Load Int128 := taking width (preloadInt · width)

def loadBit : Load Bool := taking 1 fun s => (s.front 1).map fun bits => bits.head? == some true

def skipBits (n : Nat) : Load Unit := taking n fun s => (s.front n).map fun _ => ()

/-! ## Laws -/

/-- A look that succeeds finds the bits it takes. -/
theorem front_eq_ok_iff {s : Slice} {n : Nat} {bits : List Bool} :
    s.front n = .ok bits ↔ n ≤ s.bits.length ∧ bits = s.bits.take n := by
  unfold front remaining
  by_cases h : n ≤ s.bits.length
  · rw [if_pos h]
    exact ⟨fun hb => ⟨h, (Except.ok.inj hb).symm⟩, fun hb => by rw [hb.2]⟩
  · rw [if_neg h]
    exact ⟨fun hb => (nomatch hb), fun hb => absurd hb.1 h⟩

end Slice
end MessageRouter
