import MessageRouter.Cell.Bits
import MessageRouter.Hash.Sha256
import MessageRouter.Text.Hex
/-!
# `Cell.Basic` — cells and their hashes

* `Cell`: a bit string and references to other cells, a finite tree.
* `Cell.depth`: the longest way down its references.
* `Cell.representation`: the bytes that are hashed. Two descriptor bytes tell the number of references and
  the length of the data; then come the data, closed by a set bit where they do not fill their last byte,
  the depths of the references and their hashes.
* `Cell.hash`: the SHA-256 hash of the representation.
-/
namespace MessageRouter

/-- A bit string and references to other cells. -/
inductive Cell where
  | mk (bits : List Bool) (refs : List Cell)

namespace Cell

/-- The most bits a cell holds. -/
def maxBits : Nat := 1023

/-- The most references a cell holds. -/
def maxRefs : Nat := 4

def bits : Cell → List Bool
  | mk bits _ => bits

def refs : Cell → List Cell
  | mk _ refs => refs

@[simp] theorem bits_mk (bits : List Bool) (refs : List Cell) : (mk bits refs).bits = bits := rfl

@[simp] theorem refs_mk (bits : List Bool) (refs : List Cell) : (mk bits refs).refs = refs := rfl

@[ext] theorem ext {c d : Cell} (hbits : c.bits = d.bits) (hrefs : c.refs = d.refs) : c = d := by
  cases c; cases d; simp_all

/-- The cell without bits or references. -/
def empty : Cell := mk [] []

/-! ## Depth -/

/-- Depths are counted up to here. -/
def maxDepth : Nat := 2 ^ 16 - 1

mutual

/-- The longest way down the references. -/
def depth : Cell → Nat
  | mk _ refs => depthAbove refs

/-- The longest way down from above some cells. -/
def depthAbove : List Cell → Nat
  | [] => 0
  | c :: rest => max (min (depth c + 1) maxDepth) (depthAbove rest)

end

theorem depthAbove_le (refs : List Cell) : depthAbove refs ≤ maxDepth := by
  induction refs with
  | nil => exact Nat.zero_le _
  | cons c rest ih =>
    rw [depthAbove]
    exact Nat.max_le.mpr ⟨Nat.min_le_right _ _, ih⟩

/-- A depth fits two bytes. -/
theorem depth_le (c : Cell) : c.depth ≤ maxDepth := by
  cases c with
  | mk _ refs => simpa only [depth] using depthAbove_le refs

/-! ## Representation and hash -/

/-- The data bits, closed by a set bit if they do not fill their last byte. -/
def closedData (bits : List Bool) : List UInt8 :=
  Bits.toBytes (if bits.length % 8 = 0 then bits else bits ++ [true])

/-- The two descriptor bytes. -/
def descriptor (c : Cell) : List UInt8 :=
  let length := c.bits.length
  [UInt8.ofNat c.refs.length, UInt8.ofNat ((length + 7) / 8 + length / 8)]

/-- The depth of a cell in two bytes. -/
def depthBytes (c : Cell) : List UInt8 := [UInt8.ofNat (c.depth / 256), UInt8.ofNat (c.depth % 256)]

/-- The bytes that are hashed, given the hashes of the references. -/
def represent (c : Cell) (hashes : List UInt8) : List UInt8 :=
  descriptor c ++ closedData c.bits ++ c.refs.flatMap depthBytes ++ hashes

mutual

/-- The SHA-256 hash of the representation. -/
def hash : Cell → List UInt8
  | mk bits refs => Sha256.digest (represent (mk bits refs) (hashes refs))

/-- The hashes of some cells, one after the other. -/
def hashes : List Cell → List UInt8
  | [] => []
  | c :: rest => hash c ++ hashes rest

end

/-- The bytes that are hashed. -/
def representation (c : Cell) : List UInt8 := represent c (hashes c.refs)

theorem hash_eq (c : Cell) : c.hash = Sha256.digest c.representation := by
  cases c with
  | mk bits refs => rw [hash, representation, refs_mk]

theorem hashes_eq_flatMap (cells : List Cell) : hashes cells = cells.flatMap hash := by
  induction cells with
  | nil => rfl
  | cons c rest ih => rw [hashes, ih, List.flatMap_cons]

/-- A hash has 32 bytes. -/
@[simp] theorem length_hash (c : Cell) : c.hash.length = 32 := by
  rw [hash_eq, Sha256.length_digest]

/-- The hash as hexadecimal text. -/
def hashText (c : Cell) : String := Text.hexBytes c.hash

end Cell
end MessageRouter
