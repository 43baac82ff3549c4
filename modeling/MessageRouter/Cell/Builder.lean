import MessageRouter.Cell.Basic
import MessageRouter.Cell.Fault
/-!
# `Cell.Builder` — cells while they are written

* `Builder`: the bits and references stored so far.
* `Build`: stores, of which a failing one leaves behind what it had stored.
* `storeBits`, `storeUint`, `storeInt`, `storeBytes`, `storeRef`, `storeCell`: the stores.
* `Build.cell`: the cell that some stores make.

A store of bits that do not all fit stores as many of them as do.
-/
namespace MessageRouter

/-- The bits and references stored so far. -/
structure Builder where
  bits : List Bool
  refs : List Cell

/-- Stores, of which a failing one leaves behind what it had stored. -/
abbrev Build := EStateM Cell.Fault Builder

namespace Builder

def empty : Builder := ⟨[], []⟩

/-- The cell of what is stored. -/
def cell (b : Builder) : Cell := .mk b.bits b.refs

/-! ## Bits -/

/-- Bits, as many as fit. -/
def storeBits (bits : List Bool) : Build Unit := fun b =>
  let room := Cell.maxBits - b.bits.length
  if bits.length ≤ room then .ok () { b with bits := b.bits ++ bits }
  else .error .tooManyBits { b with bits := b.bits ++ bits.take room }

/-- A number and its width without those of its last bits that no cell has room for. -/
def clip [HShiftRight α Nat α] (value : α) (width : Nat) : α × Nat :=
  if width ≤ Cell.maxBits then (value, width)
  else (value >>> (width - (Cell.maxBits + 1)), Cell.maxBits + 1)

def storeBit (bit : Bool) : Build Unit := storeBits [bit]

/-- An unsigned number, which has to fit its width. -/
def storeUint (value width : Nat) : Build Unit :=
  if value >>> width = 0 then
    let (value, width) := clip value width
    storeBits (Bits.ofNat width value)
  else throw (.unsignedRange value width)

/-- Whether two's complement of a width can hold an integer. -/
def fitsSigned (value : Int) : (width : Nat) → Bool
  | 0 => value = 0
  | width + 1 => value >>> width = 0 || value >>> width = -1

/-- A signed number, which has to fit its width. -/
def storeInt (value : Int) (width : Nat) : Build Unit :=
  if fitsSigned value width then
    let (value, width) := clip value width
    storeBits (Bits.ofInt width value)
  else throw (.signedRange value width)

def storeBytes (bytes : List UInt8) : Build Unit := storeBits (Bits.ofBytes bytes)

/-! ## References -/

def storeRef (c : Cell) : Build Unit := fun b =>
  if b.refs.length < Cell.maxRefs then .ok () { b with refs := b.refs ++ [c] }
  else .error .tooManyRefs b

/-- References, as many as fit. -/
def storeRefs (refs : List Cell) : Build Unit := refs.forM storeRef

/-- The bits of a cell, and then its references. -/
def storeCell (c : Cell) : Build Unit := do
  storeBits c.bits
  storeRefs c.refs

end Builder

/-- The cell that some stores make from nothing. -/
def Build.cell (stores : Build Unit) : Except Cell.Fault Cell :=
  match stores.run Builder.empty with
  | .ok _ b => .ok b.cell
  | .error e _ => .error e

/-- The cell of some bytes. -/
def Cell.ofBytes (bytes : List UInt8) : Except Cell.Fault Cell :=
  Build.cell (Builder.storeBytes bytes)

end MessageRouter
