import MessageRouter.Cell.Builder
import MessageRouter.Packed.Slice
/-!
# `Packed.Builder` — packed cells while they are written

* `Builder`: the bytes, the number of bits in them, and the references stored so far.
* `Build`: stores, of which a failing one leaves behind what it had stored.
* `storeBit`: the store that all others of bits are made of.
* `storeUint`, `storeInt`, `storeBytes`, `storeRef`, `storeSlice`: the stores.
-/
namespace MessageRouter
namespace Packed

/-- The bytes, the number of bits in them, and the references stored so far. -/
structure Builder where
  bytes : Array UInt8
  length : Nat
  refs : List Packed

/-- Stores, of which a failing one leaves behind what it had stored. -/
abbrev Build := EStateM Stop Builder

namespace Builder

def empty : Builder := ⟨#[], 0, []⟩

/-- The cell of what is stored. -/
def cell (b : Builder) : Packed := Packed.mk b.bytes b.length b.refs

/-! ## Bits -/

/-- A bit behind the others, in a new byte if they fill theirs. -/
def storeBit (bit : Bool) : Build Unit := fun b =>
  if Cell.maxBits ≤ b.length then .error (.fault .tooManyBits) b
  else
    let bytes := grown b.bytes b.length
    if bit then
      match orAt bytes (bytes.size - 1) (mask (b.length % 8)) with
      | .ok bytes => .ok () { b with bytes, length := b.length + 1 }
      | .error e => .error e { b with bytes }
    else .ok () { b with bytes, length := b.length + 1 }

/-- The first `n` of some bits, the last one first. -/
def storeDown (bit : Nat → Bool) : Nat → Build Unit
  | 0 => pure ()
  | n + 1 => do
    storeBit (bit n)
    storeDown bit n

/-- An unsigned number, which has to fit its width. -/
def storeUint (value : BitVec 128) (width : Nat) : Build Unit :=
  if width < 128 ∧ value >>> width ≠ 0 then throw (.fault (.unsignedRange value.toNat width))
  else storeDown (fun i => i < 128 && (value >>> i) &&& 1 == 1) width

/-- Whether two's complement of a width can hold an integer. -/
def fits (value : Int128) (width : Nat) : Bool :=
  if width = 0 then value.toInt = 0
  else if width ≤ 127 then -2 ^ (width - 1) ≤ value.toInt && value.toInt < 2 ^ (width - 1)
  else true

/-- A signed number, which has to fit its width. -/
def storeInt (value : Int128) (width : Nat) : Build Unit :=
  if fits value width then
    storeDown (fun i => if 127 ≤ i then value.toInt < 0 else (value.bits.sshiftRight i) &&& 1 == 1) width
  else throw (.fault (.signedRange value.toInt width))

/-- Bytes, each of them as a number. -/
def storeBytes (bytes : List UInt8) : Build Unit :=
  bytes.forM fun b => storeUint (BitVec.ofNat 128 b.toNat) 8

/-! ## References -/

def storeRef (c : Packed) : Build Unit := fun b =>
  if Cell.maxRefs ≤ b.refs.length then .error (.fault .tooManyRefs) b
  else .ok () { b with refs := b.refs ++ [c] }

/-- The last `left` bits of a slice. -/
def storeRest (s : Slice) : (left : Nat) → Build Unit
  | 0 => pure ()
  | left + 1 => do
    match s.bit (s.remaining - (left + 1)) with
    | .ok bit => storeBit bit
    | .error e => throw e
    storeRest s left

/-- The bits that are left of a slice, and then its references. -/
def storeSlice (s : Slice) : Build Unit := do
  storeRest s s.remaining
  s.cell.refs.forM storeRef

/-! ## Bit strings -/

/-- The bits that are stored. -/
def bits (b : Builder) : List Bool := unpack b.bytes b.length

/-- The builder of the same bits and references. -/
def plain (b : Builder) : MessageRouter.Builder := ⟨b.bits, b.refs.map Packed.plain⟩

end Builder
end Packed
end MessageRouter
