import MessageRouter.Int128
/-!
# `Text.Numeral` — integers read from and written as digits

* `NumeralError`: why a text is no integer of the range asked for.
* `readNat`, `readInt`: an optional sign and digits of a radix, bounded by the range.
* `hex`: a natural number in lower-case hexadecimal.

The digits are read from the left, and the first offence is the one reported.
-/
namespace MessageRouter
namespace Text

/-- Why a text is no integer of the range asked for. -/
inductive NumeralError where
  | empty
  | invalidDigit
  | tooLarge
  | tooSmall
  deriving DecidableEq, Repr

def NumeralError.message : NumeralError → String
  | .empty => "cannot parse integer from empty string"
  | .invalidDigit => "invalid digit found in string"
  | .tooLarge => "number too large to fit in target type"
  | .tooSmall => "number too small to fit in target type"

/-! ## Digits -/

/-- The value of a digit, letters of either case standing for ten and above. -/
def digitValue (radix : Nat) (c : Char) : Option Nat :=
  let value? :=
    if '0' ≤ c ∧ c ≤ '9' then some (c.toNat - '0'.toNat)
    else if 'a' ≤ c ∧ c ≤ 'z' then some (c.toNat - 'a'.toNat + 10)
    else if 'A' ≤ c ∧ c ≤ 'Z' then some (c.toNat - 'A'.toNat + 10)
    else none
  value?.filter (· < radix)

theorem digitValue_lt {radix d : Nat} {c : Char} (h : digitValue radix c = some d) : d < radix := by
  simpa using (Option.filter_eq_some_iff.mp h).2

/-- Digits after those that gave `value`; passing `limit` is the offence `offence`. -/
def readDigits (radix limit : Nat) (offence : NumeralError) (value : Nat) :
    List Char → Except NumeralError Nat
  | [] => .ok value
  | c :: rest =>
    match digitValue radix c with
    | none => .error .invalidDigit
    | some d =>
      if value * radix + d ≤ limit then readDigits radix limit offence (value * radix + d) rest
      else .error offence

/-- What is read never passes the limit. -/
theorem readDigits_le {radix limit : Nat} {offence : NumeralError} {cs : List Char} {value n : Nat}
    (hv : value ≤ limit) (h : readDigits radix limit offence value cs = .ok n) : n ≤ limit := by
  induction cs generalizing value with
  | nil =>
    rw [readDigits] at h
    exact Except.ok.inj h ▸ hv
  | cons c rest ih =>
    rw [readDigits] at h
    split at h
    · exact nomatch h
    · split at h
      · next hle => exact ih hle h
      · exact nomatch h

/-! ## Integers -/

/-- An optional `+` and at least one digit, the value being at most `limit`. -/
def readNat (radix limit : Nat) : List Char → Except NumeralError Nat
  | [] => .error .empty
  | '+' :: c :: rest => readDigits radix limit .tooLarge 0 (c :: rest)
  | cs => readDigits radix limit .tooLarge 0 cs

theorem readNat_le {radix limit n : Nat} {cs : List Char} (h : readNat radix limit cs = .ok n) :
    n ≤ limit := by
  unfold readNat at h
  split at h
  · exact nomatch h
  · exact readDigits_le (Nat.zero_le _) h
  · exact readDigits_le (Nat.zero_le _) h

/-- An optional sign and at least one digit, the value lying between `-below` and `above`. -/
def readInt (radix below above : Nat) : List Char → Except NumeralError Int
  | '-' :: c :: rest => (readDigits radix below .tooSmall 0 (c :: rest)).map fun n => -(n : Int)
  | cs => (readNat radix above cs).map Int.ofNat

/-! ## Writing -/

/-- Lower-case hexadecimal without leading zeros. -/
def hex (n : Nat) : String := String.ofList (Nat.toDigits 16 n)

/-- Hexadecimal filled up with zeros to `width` digits. -/
def hexPadded (width n : Nat) : String :=
  String.ofList ((Nat.toDigits 16 n).leftpad width '0')

end Text
end MessageRouter
