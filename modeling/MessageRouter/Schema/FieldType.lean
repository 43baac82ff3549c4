import MessageRouter.Text.Numeral
/-!
# `Schema.FieldType` — the types of message and state fields

* `FieldType`: unsigned and signed integers of a width, booleans and coin amounts.
* `FieldType.ofName?`, `FieldType.name`: their names.
* `FieldType.maxBits`: how many bits a value takes at most.
-/
namespace MessageRouter

/-- The type of a message or state field. -/
inductive FieldType where
  | uint (width : Nat)
  | int (width : Nat)
  | bool
  /-- A non-negative amount: four bits for its length in bytes, then the bytes. -/
  | coins
  deriving DecidableEq, Repr

namespace FieldType

/-- The widths of unsigned integers end here. -/
def maxUintWidth : Nat := 256

/-- The widths of signed integers end here. -/
def maxIntWidth : Nat := 257

/-- Bits of the length in front of a coin amount. -/
def coinsLengthBits : Nat := 4

/-- The most bytes of a coin amount. -/
def maxCoinsBytes : Nat := 15

/-- The text after a fixed beginning, if it has that beginning. -/
def after? : (start cs : List Char) → Option (List Char)
  | [], cs => some cs
  | _ :: _, [] => none
  | s :: start, c :: cs => if s = c then after? start cs else none

/-- A width from 1 to `limit`. -/
def width? (limit : Nat) (digits : List Char) : Option Nat :=
  match Text.readNat 10 (2 ^ 16 - 1) digits with
  | .ok n => if 1 ≤ n ∧ n ≤ limit then some n else none
  | .error _ => none

/-- A width that is read is in range. -/
theorem width?_bounds {limit n : Nat} {digits : List Char} (h : width? limit digits = some n) :
    1 ≤ n ∧ n ≤ limit := by
  unfold width? at h
  split at h
  · split at h
    · next hn => exact Option.some.inj h ▸ hn
    · exact nomatch h
  · exact nomatch h

/-- The type of a name. -/
def ofName? (name : String) : Option FieldType :=
  if name = "bool" then some bool
  else if name = "coins" then some coins
  else
    match after? ['u', 'i', 'n', 't'] name.toList with
    | some digits => (width? maxUintWidth digits).map uint
    | none =>
      match after? ['i', 'n', 't'] name.toList with
      | some digits => (width? maxIntWidth digits).map int
      | none => none

/-- The name of a type. -/
def name : FieldType → String
  | uint w => "uint" ++ toString w
  | int w => "int" ++ toString w
  | bool => "bool"
  | coins => "coins"

/-- How many bits a value takes at most. -/
def maxBits : FieldType → Nat
  | uint w => w
  | int w => w
  | bool => 1
  | coins => coinsLengthBits + maxCoinsBytes * 8

/-- The type of a field's value on the stack of the target: every one is an integer. -/
def funcType (_ : FieldType) : String := "int"

/-- The widths that may be declared. -/
def IsInRange : FieldType → Prop
  | uint w => 1 ≤ w ∧ w ≤ maxUintWidth
  | int w => 1 ≤ w ∧ w ≤ maxIntWidth
  | bool => True
  | coins => True

/-- A type that is read has a width in range. -/
theorem isInRange_of_ofName? {s : String} {t : FieldType} (h : ofName? s = some t) :
    t.IsInRange := by
  unfold ofName? at h
  split at h
  · exact Option.some.inj h ▸ trivial
  · split at h
    · exact Option.some.inj h ▸ trivial
    · split at h
      · obtain ⟨w, hw, rfl⟩ := Option.map_eq_some_iff.mp h
        exact width?_bounds hw
      · split at h
        · obtain ⟨w, hw, rfl⟩ := Option.map_eq_some_iff.mp h
          exact width?_bounds hw
        · exact nomatch h

end FieldType
end MessageRouter
