import MessageRouter.Cell.Builder
import MessageRouter.Record
/-!
# `Schema.Codec` — messages as cells

* `Codec.Fault`: why a message cannot be written or read.
* `Codec.encode`: the cell of a message, its opcode first and then its fields in order.
* `Codec.decodeFields`, `Codec.decode`: reading fields, and reading a message after its opcode. What was read
  before a fault stays read.
-/
namespace MessageRouter
namespace Codec

/-- Why a message cannot be written or read. -/
inductive Fault where
  | cell (cause : Cell.Fault)
  | foreignOpcode (message : String) (expected : UInt32) (got : Nat)
  /-- An unsigned number that no integer of the simulation holds. -/
  | unsignedRange (value : Nat)
  | missingValue (message field : String)
  | wrongKind (field : Field) (kind : Value.Kind)
  | coinsRange (field : String) (value : Nat)
  | negative (field : Field) (value : Int)
  deriving DecidableEq, Repr

namespace Fault

/-- The exit code that a fault raises. -/
def code : Fault → Nat
  | cell cause => cause.code
  | foreignOpcode .. => 129
  | unsignedRange _ => 4
  | missingValue .. | wrongKind .. => 7
  | coinsRange .. | negative .. => 5

/-- An opcode with all its digits. -/
def opcodeText (n : Nat) : String := "0x" ++ Text.hexPadded 8 n

def message : Fault → String
  | cell cause => cause.message
  | foreignOpcode name expected got =>
    name ++ ": expected opcode " ++ opcodeText expected.toNat ++ ", got " ++ opcodeText got
  | unsignedRange value =>
    "unsigned value " ++ toString value ++ " exceeds the simulator integer range"
  | missingValue name field => name ++ ": missing value for field " ++ Text.quoted field
  | wrongKind f kind =>
    "field " ++ Text.quoted f.name ++ " of type " ++ f.type.name ++ " cannot hold a " ++ kind.name
  | coinsRange field value =>
    "field " ++ Text.quoted field ++ ": coins value " ++ toString value ++ " exceeds 120 bits"
  | negative f value =>
    "field " ++ Text.quoted f.name ++ ": negative value " ++ toString value ++ " for " ++ f.type.name

end Fault

/-! ## Writing -/

/-- Stores of a message. -/
abbrev Encode := EStateM Fault Builder

def store (stores : Build Unit) : Encode Unit := EStateM.adaptExcept .cell stores

/-- How many bytes a natural number takes at least. -/
def byteLength (n : Nat) : Nat := if n = 0 then 0 else n.log2 / 8 + 1

/-- So many bytes are enough exactly if the number is below the power of their bits. -/
theorem byteLength_le_iff {n k : Nat} : byteLength n ≤ k ↔ n < 2 ^ (8 * k) := by
  unfold byteLength
  by_cases h : n = 0
  · rw [if_pos h, h]
    exact iff_of_true (Nat.zero_le k) (Nat.two_pow_pos (8 * k))
  · rw [if_neg h, ← Nat.log2_lt h]
    omega

/-- The natural number of an integer that is not negative. -/
def nonNegative (f : Field) (i : Int128) : Encode Nat :=
  if 0 ≤ i.toInt then pure i.toInt.toNat else throw (.negative f i.toInt)

/-- An amount after its length in bytes. -/
def encodeCoins (field : String) (amount : Nat) : Encode Unit :=
  let length := byteLength amount
  if FieldType.maxCoinsBytes < length then throw (.coinsRange field amount)
  else do
    store (Builder.storeUint length FieldType.coinsLengthBits)
    store (Builder.storeUint amount (length * 8))

/-- The value of a field. -/
def encodeField (f : Field) (v : Value) : Encode Unit :=
  match f.type, v with
  | .bool, .bool b => store (Builder.storeBit b)
  | .int width, .int i => store (Builder.storeInt i.toInt width)
  | .uint width, .int i => do store (Builder.storeUint (← nonNegative f i) width)
  | .coins, .int i => do encodeCoins f.name (← nonNegative f i)
  | _, v => throw (.wrongKind f v.kind)

/-- The values of fields in order. -/
def encodeFields (message : String) (values : Record) : List Field → Encode Unit
  | [] => pure ()
  | f :: rest => do
    match values.get? f.name with
    | some v => encodeField f v
    | none => throw (.missingValue message f.name)
    encodeFields message values rest

/-- The opcode of a message, if it has one. -/
def encodeHeader : Option Header → Encode Unit
  | some h => store (Builder.storeUint h.value.toNat opcodeBits)
  | none => pure ()

/-- The stores of a message. -/
def stores (m : Message) (values : Record) : Encode Unit := do
  encodeHeader m.header
  encodeFields m.name values m.fields

/-- The cell of a message with some values. -/
def encode (m : Message) (values : Record) : Except Fault Cell :=
  match (stores m values).run Builder.empty with
  | .ok _ b => .ok b.cell
  | .error e _ => .error e

/-! ## Reading -/

/-- Reads of a message. -/
abbrev Decode := EStateM Fault Slice

def load (loads : Load α) : Decode α := EStateM.adaptExcept .cell loads

/-- An unsigned number as an integer of the simulation. -/
def ofUnsigned (n : Nat) : Decode Value :=
  (Int128.ofInt? n).elim (throw (.unsignedRange n)) fun i => pure (.int i)

/-- A value of a type. -/
def decodeValue : FieldType → Decode Value
  | .bool => do return .bool (← load Slice.loadBit)
  | .int width => do return .int (← load (Slice.loadInt width))
  | .uint width => do ofUnsigned (← load (Slice.loadUint width))
  | .coins => do
    let length ← load (Slice.loadUint FieldType.coinsLengthBits)
    ofUnsigned (← load (Slice.loadUint (length * 8)))

/-- Fields in order. -/
def decodeEntries : List Field → Decode (List (String × Value))
  | [] => pure []
  | f :: rest => do
    let v ← decodeValue f.type
    return (f.name, v) :: (← decodeEntries rest)

def decodeFields (fields : List Field) : Decode Record := do return ⟨← decodeEntries fields⟩

/-- A message, whole or as a bounce keeps it, after its opcode. -/
def decode (l : Layout) (isPartial : Bool) : Decode Record := do
  let opcode ← load (Slice.loadUint opcodeBits)
  if opcode = l.header.value.toNat then decodeFields (l.fields isPartial)
  else throw (.foreignOpcode l.message.name l.header.value opcode)

end Codec
end MessageRouter
