import MessageRouter.Cell.Slice
import MessageRouter.Packed.Basic
/-!
# `Packed.Slice` — packed cells while they are read

* `Slice`: a packed cell and how many of its bits are taken.
* `Load`: reads, of which a failing one takes nothing.
* `preloadUint`, `preloadInt`: the number in front, read bit by bit.
* `loadUint`, `loadInt`, `loadBit`, `skipBits`: the same, taking the bits.
* `toCell`: what is left, with its bits moved to the front of new bytes.
-/
namespace MessageRouter
namespace Packed

/-- A packed cell and how many of its bits are taken. -/
structure Slice where
  cell : Packed
  position : Nat

/-- Reads of a slice; those before a failing one keep what they took. -/
abbrev Load := EStateM Stop Slice

namespace Slice

/-- All of a cell. -/
def ofCell (c : Packed) : Slice := ⟨c, 0⟩

/-- How many bits are left. -/
def remaining (s : Slice) : Nat := s.cell.length - s.position

/-- A bit that is left. -/
def bit (s : Slice) (i : Nat) : Except Stop Bool := bitAt s.cell.bytes (s.position + i)

/-- A check that so many bits are left. -/
def ensure (s : Slice) (n : Nat) : Except Stop Unit :=
  if s.remaining < n then .error (.fault (.underflow n s.remaining)) else .ok ()

/-! ## Numbers -/

/-- A number with one more bit behind its own. -/
def pushed (v : BitVec 128) (bit : Bool) : BitVec 128 := v <<< 1 ||| BitVec.ofNat 128 bit.toNat

/-- The last `left` bits of an unsigned number of a width, behind those that are read. -/
def readUint (s : Slice) (width : Nat) : (left : Nat) → BitVec 128 → Except Stop (BitVec 128)
  | 0, v => .ok v
  | left + 1, v => do
    let bit ← s.bit (width - (left + 1))
    if 128 < left + 1 then
      if bit then throw (.fault (.unsignedTooWide width)) else readUint s width left v
    else readUint s width left (pushed v bit)

/-- The unsigned number in the first `width` bits; it may have 128 bits. -/
def preloadUint (s : Slice) (width : Nat) : Except Stop (BitVec 128) := do
  s.ensure width
  readUint s width width 0

/-- The last `left` bits of a signed number of a width, behind those that are read. -/
def readInt (s : Slice) (width : Nat) (sign : Bool) :
    (left : Nat) → BitVec 128 → Except Stop (BitVec 128)
  | 0, v => .ok v
  | left + 1, v => do
    let bit ← s.bit (width - (left + 1))
    if 127 < left + 1 then
      if bit = sign then readInt s width sign left v else throw (.fault (.signedTooWide width))
    else readInt s width sign left (pushed v bit)

/-- The signed number in the first `width` bits; it may have 128 bits. -/
def preloadInt (s : Slice) (width : Nat) : Except Stop Int128 := do
  if width = 0 then return 0
  s.ensure width
  let sign ← s.bit 0
  return ⟨← readInt s width sign width (if sign then -1 else 0)⟩

/-! ## Reads -/

/-- A look at the first `n` bits that takes them if it succeeds. -/
def taking (n : Nat) (look : Slice → Except Stop α) : Load α := fun s =>
  match look s with
  | .ok a => .ok a { s with position := s.position + n }
  | .error e => .error e s

def loadUint (width : Nat) : Load (BitVec 128) := taking width (preloadUint · width)

def loadInt (width : Nat) : Load Int128 := taking width (preloadInt · width)

def loadBit : Load Bool := taking 1 fun s => do
  s.ensure 1
  s.bit 0

def skipBits (n : Nat) : Load Unit := taking n (ensure · n)

/-! ## Cells -/

/-- The bytes with the bits that are left, of which the last `left` are not in them yet. -/
def moveBits (s : Slice) : (left : Nat) → Array UInt8 → Except Stop (Array UInt8)
  | 0, bytes => .ok bytes
  | left + 1, bytes => do
    let i := s.remaining - (left + 1)
    let bytes ← if ← s.bit i then orAt bytes (i / 8) (mask (i % 8)) else .ok bytes
    moveBits s left bytes

/-- What is left, as a cell. -/
def toCell (s : Slice) : Except Stop Packed := do
  let bytes ← moveBits s s.remaining (Array.replicate ((s.remaining + 7) / 8) 0)
  return Packed.mk bytes s.remaining s.cell.refs

/-- The hash of what is left. -/
def hash (s : Slice) : Except Stop (List UInt8) := do (← s.toCell).hash

/-- The bytes of what is left. -/
def data (s : Slice) : Except Stop (List UInt8) := do return (← s.toCell).bytes.toList

/-! ## Bit strings -/

/-- The bits that are left. -/
def bits (s : Slice) : List Bool := s.cell.bits.drop s.position

/-- The slice of the same bits and references. -/
def plain (s : Slice) : MessageRouter.Slice := ⟨s.bits, s.cell.refs.map Packed.plain⟩

end Slice
end Packed
end MessageRouter
