import MessageRouter.Cell.Basic
import MessageRouter.Cell.Fault
/-!
# `Packed.Basic` — cells that keep their bits in bytes

A packed cell has eight bits to a byte, the highest first. What its last byte has besides its bits is zero, so that
cells of the same bits have the same bytes.

* `Packed`: the bytes, the number of bits in them, and references.
* `Packed.bitAt`, `Packed.orAt`: a look at a bit and a change of a byte, which must be there.
* `Packed.grown`: the bytes with room for another bit.
* `Packed.beq`: cells of the same bytes, number of bits and references.
* `Packed.representation`, `Packed.hash`: the bytes that are hashed, and their hash.
* `Packed.bits`, `Packed.plain`: the bits of a packed cell, and the cell of them.
-/
namespace MessageRouter

/-- A cell with its bits in bytes, of which `length` are used. -/
inductive Packed where
  | mk (bytes : Array UInt8) (length : Nat) (refs : List Packed)

namespace Packed

/-- Why a store into packed bytes or a read of them ends early. -/
inductive Stop where
  | fault (cause : Cell.Fault)
  /-- A byte was needed that is not there. -/
  | outOfBounds
  deriving DecidableEq, Repr

def bytes : Packed → Array UInt8
  | mk bytes _ _ => bytes

def length : Packed → Nat
  | mk _ length _ => length

def refs : Packed → List Packed
  | mk _ _ refs => refs

@[simp] theorem bytes_mk (bytes : Array UInt8) (length : Nat) (refs : List Packed) :
    (mk bytes length refs).bytes = bytes := rfl

@[simp] theorem length_mk (bytes : Array UInt8) (length : Nat) (refs : List Packed) :
    (mk bytes length refs).length = length := rfl

@[simp] theorem refs_mk (bytes : Array UInt8) (length : Nat) (refs : List Packed) :
    (mk bytes length refs).refs = refs := rfl

@[ext] theorem ext {c d : Packed} (hbytes : c.bytes = d.bytes) (hlength : c.length = d.length)
    (hrefs : c.refs = d.refs) : c = d := by
  cases c; cases d; simp_all

/-- The cell without bits or references. -/
def empty : Packed := mk #[] 0 []

/-! ## Bits and bytes -/

/-- The bit of a byte at a place that is counted from the highest. -/
def bitOf (b : UInt8) (place : Nat) : Bool := (b >>> UInt8.ofNat (7 - place)) &&& 1 == 1

/-- The byte with one bit, at a place that is counted from the highest. -/
def mask (place : Nat) : UInt8 := 0x80 >>> UInt8.ofNat place

/-- The bit at a place of some bytes. -/
def bitAt (bytes : Array UInt8) (i : Nat) : Except Stop Bool :=
  match bytes[i / 8]? with
  | some b => .ok (bitOf b (i % 8))
  | none => .error .outOfBounds

/-- The bytes, with the bits of `b` set in the one at a place. -/
def orAt (bytes : Array UInt8) (i : Nat) (b : UInt8) : Except Stop (Array UInt8) :=
  if i < bytes.size then .ok (bytes.modify i (· ||| b)) else .error .outOfBounds

/-- The bytes with room for another bit: one more byte if the bits fill those that are there. -/
def grown (bytes : Array UInt8) (length : Nat) : Array UInt8 :=
  if length % 8 = 0 then bytes.push 0 else bytes

/-! ## Equality -/

mutual

/-- Cells of the same bytes, number of bits and references. -/
def beq : Packed → Packed → Bool
  | mk bytes length refs, mk bytes' length' refs' =>
    bytes == bytes' && length == length' && beqAll refs refs'

def beqAll : List Packed → List Packed → Bool
  | [], [] => true
  | c :: rest, c' :: rest' => beq c c' && beqAll rest rest'
  | _, _ => false

end

instance : BEq Packed := ⟨beq⟩

/-! ## Depth -/

mutual

/-- The longest way down the references. -/
def depth : Packed → Nat
  | mk _ _ refs => depthAbove refs

/-- The longest way down from above some cells. -/
def depthAbove : List Packed → Nat
  | [] => 0
  | c :: rest => max (min (depth c + 1) Cell.maxDepth) (depthAbove rest)

end

/-- The depth of a cell in two bytes. -/
def depthBytes (c : Packed) : List UInt8 := [UInt8.ofNat (c.depth / 256), UInt8.ofNat (c.depth % 256)]

/-! ## Representation and hash -/

/-- The bytes of the data that are hashed: the full ones, and what the last one has of the data, closed by a set bit. -/
def closedData (bytes : Array UInt8) (length : Nat) : Except Stop (List UInt8) :=
  let full := length / 8
  let rest := length % 8
  if full ≤ bytes.size then
    if rest = 0 then .ok (bytes.toList.take full)
    else
      match bytes[full]? with
      | some b =>
        let kept := b &&& (0xff <<< UInt8.ofNat (8 - rest))
        .ok (bytes.toList.take full ++ [kept ||| mask rest])
      | none => .error .outOfBounds
  else .error .outOfBounds

/-- The two descriptor bytes. -/
def descriptor (c : Packed) : List UInt8 :=
  [UInt8.ofNat c.refs.length, UInt8.ofNat ((c.length + 7) / 8 + c.length / 8)]

/-- The bytes that are hashed, given the hashes of the references. -/
def represent (c : Packed) (hashes : List UInt8) : Except Stop (List UInt8) := do
  let data ← closedData c.bytes c.length
  return descriptor c ++ data ++ c.refs.flatMap depthBytes ++ hashes

mutual

/-- The SHA-256 hash of the representation. -/
def hash : Packed → Except Stop (List UInt8)
  | mk bytes length refs => do
    let hashes ← hashes refs
    return Sha256.digest (← represent (mk bytes length refs) hashes)

/-- The hashes of some cells, one after the other. -/
def hashes : List Packed → Except Stop (List UInt8)
  | [] => return []
  | c :: rest => do
    let first ← hash c
    return first ++ (← hashes rest)

end

/-- The bytes that are hashed. -/
def representation (c : Packed) : Except Stop (List UInt8) := do represent c (← hashes c.refs)

/-! ## Bit strings -/

/-- The bit at a place of some bytes, and zeros behind them. -/
def bitOrZero (bytes : Array UInt8) (i : Nat) : Bool := bitOf (bytes[i / 8]?.getD 0) (i % 8)

/-- The first bits of some bytes. -/
def unpack (bytes : Array UInt8) (length : Nat) : List Bool := (List.range length).map (bitOrZero bytes)

@[simp] theorem length_unpack (bytes : Array UInt8) (length : Nat) :
    (unpack bytes length).length = length := by
  simp [unpack]

/-- The bits of a cell. -/
def bits (c : Packed) : List Bool := unpack c.bytes c.length

mutual

/-- The cell of the same bits and references. -/
def plain : Packed → Cell
  | mk bytes length refs => .mk (unpack bytes length) (plainAll refs)

def plainAll : List Packed → List Cell
  | [] => []
  | c :: rest => plain c :: plainAll rest

end

theorem plainAll_eq_map (cells : List Packed) : plainAll cells = cells.map plain := by
  induction cells with
  | nil => rfl
  | cons c rest ih => rw [plainAll, ih, List.map_cons]

@[simp] theorem bits_plain (c : Packed) : c.plain.bits = c.bits := by
  cases c
  rfl

@[simp] theorem refs_plain (c : Packed) : c.plain.refs = c.refs.map plain := by
  cases c
  exact plainAll_eq_map _

end Packed
end MessageRouter
