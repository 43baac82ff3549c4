import MessageRouter.Text.Blank
import MessageRouter.Text.Numeral
/-!
# `Text.Hex` — bytes as hexadecimal text

* `hexBytes`: two lower-case digits a byte.
* `readHex`: bytes from digits of either case, after an optional `0x` and between blanks. Every pair of
  characters is read as a numeral of its own.
-/
namespace MessageRouter
namespace Text

/-- Two lower-case digits a byte. -/
def hexBytes (bytes : List UInt8) : String :=
  String.ofList (bytes.flatMap fun b => (Nat.toDigits 16 b.toNat).leftpad 2 '0')

/-- Why a text is no hexadecimal text. -/
inductive HexError where
  | notAscii
  | oddLength (length : Nat)
  | badPair (offset : Nat) (cause : NumeralError)
  deriving DecidableEq, Repr

def HexError.message : HexError → String
  | .notAscii => "hex string must be ASCII"
  | .oddLength n => "hex string has odd length: " ++ toString n
  | .badPair offset cause => "invalid hex at offset " ++ toString offset ++ ": " ++ cause.message

/-- The pairs of digits from `offset` on. -/
def readPairs (offset : Nat) : List Char → Except HexError (List UInt8)
  | high :: low :: rest => do
    let n ← (readNat 16 255 [high, low]).mapError (.badPair offset)
    return UInt8.ofNat n :: (← readPairs (offset + 2) rest)
  | _ => .ok []

/-- The text after an optional `0x`. -/
def afterHexMark : List Char → List Char
  | '0' :: 'x' :: rest => rest
  | cs => cs

/-- Bytes from hexadecimal text. -/
def readHex (text : String) : Except HexError (List UInt8) :=
  let cs := afterHexMark (trim text.toList)
  if cs.any fun c => 127 < c.toNat then .error .notAscii
  else if cs.length % 2 ≠ 0 then .error (.oddLength cs.length)
  else readPairs 0 cs

end Text
end MessageRouter
