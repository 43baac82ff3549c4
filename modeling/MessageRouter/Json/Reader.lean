import MessageRouter.Json.Basic
/-!
# `Json.Reader` — JSON values from bytes

* `Reader.Cause`, `ReadError`: what is wrong with a text, and the line and column at which it is.
* `Reader.number`, `Reader.string`, `Reader.value`: the pieces of the grammar. Each takes the bytes that
  are left and gives back what it leaves.
* `Json.read`: one value, with nothing but blanks around it.

A value holds at most 127 arrays and objects in one another. An integer that 64 bits cannot hold, signed
if it is negative, is read as a double, and so is `-0`; a double is made by one multiplication or division
of its leading digits by a power of ten, each step rounded.
-/
namespace MessageRouter
namespace Json
namespace Reader

/-- What is wrong with a JSON text. -/
inductive Cause where
  | endInList
  | endInObject
  | endInString
  | endInValue
  | expectedColon
  | expectedListCommaOrEnd
  | expectedObjectCommaOrEnd
  | expectedWord
  | expectedValue
  | invalidEscape
  | invalidNumber
  | numberOutOfRange
  | invalidCodePoint
  | controlCharacter
  | keyNotString
  | loneSurrogate
  | trailingComma
  | trailingCharacters
  | endOfSurrogatePair
  | nestingLimit
  deriving DecidableEq, Repr

def Cause.message : Cause → String
  | .endInList => "EOF while parsing a list"
  | .endInObject => "EOF while parsing an object"
  | .endInString => "EOF while parsing a string"
  | .endInValue => "EOF while parsing a value"
  | .expectedColon => "expected `:`"
  | .expectedListCommaOrEnd => "expected `,` or `]`"
  | .expectedObjectCommaOrEnd => "expected `,` or `\x7d`"
  | .expectedWord => "expected ident"
  | .expectedValue => "expected value"
  | .invalidEscape => "invalid escape"
  | .invalidNumber => "invalid number"
  | .numberOutOfRange => "number out of range"
  | .invalidCodePoint => "invalid unicode code point"
  | .controlCharacter => "control character (\\u0000-\\u001F) found while parsing a string"
  | .keyNotString => "key must be a string"
  | .loneSurrogate => "lone leading surrogate in hex escape"
  | .trailingComma => "trailing comma"
  | .trailingCharacters => "trailing characters"
  | .endOfSurrogatePair => "unexpected end of hex escape"
  | .nestingLimit => "recursion limit exceeded"

/-- A cause, and how many bytes of the text are left where it shows. -/
structure Stop where
  cause : Cause
  left : Nat
  deriving DecidableEq, Repr

/-- A piece of the grammar read from the front of some bytes, and the bytes after it. -/
abbrev Step (α : Type) := Except Stop (α × List UInt8)

/-- Stops before the bytes that are left. -/
def stopBefore (cause : Cause) (rest : List UInt8) : Except Stop α := .error ⟨cause, rest.length⟩

/-- Stops after the next byte, if there is one. -/
def stopAfterNext (cause : Cause) (rest : List UInt8) : Except Stop α :=
  .error ⟨cause, rest.length - 1⟩

/-! ## Bytes -/

/-- The byte of an ASCII character. -/
abbrev byte (c : Char) : UInt8 := UInt8.ofNat c.toNat

def isBlank (b : UInt8) : Bool := b == byte ' ' || b == byte '\n' || b == byte '\t' || b == byte '\r'

def skipBlanks (s : List UInt8) : List UInt8 := s.dropWhile isBlank

def isDigit (b : UInt8) : Bool := byte '0' ≤ b && b ≤ byte '9'

def digit (b : UInt8) : Nat := b.toNat - '0'.toNat

/-! ## Words -/

/-- The remaining letters of `null`, `true` or `false`. -/
def word (value : Json) : List Char → List UInt8 → Step Json
  | [], s => .ok (value, s)
  | _ :: _, [] => stopBefore .endInValue []
  | c :: letters, b :: rest =>
    if b == byte c then word value letters rest else stopBefore .expectedWord rest

/-! ## Numbers -/

/-- The largest significand that is kept. -/
def maxSignificand : Nat := 2 ^ 64 - 1

/-- The digits in front that keep the value within `limit`: the value, their number and what is left. -/
def takeDigits (limit value taken : Nat) : List UInt8 → Nat × Nat × List UInt8
  | [] => (value, taken, [])
  | b :: rest =>
    if isDigit b && value * 10 + digit b ≤ limit then
      takeDigits limit (value * 10 + digit b) (taken + 1) rest
    else (value, taken, b :: rest)

/-- `x · 10 ^ exponent`, with a power table that ends at 308; none if it is too large. -/
def scale (x : Float) (exponent : Int) : Option Float :=
  if -308 ≤ exponent ∧ exponent < 0 then some (x / Float.ofScientific 1 false exponent.natAbs)
  else if 0 ≤ exponent ∧ exponent ≤ 308 then
    let y := x * Float.ofScientific 1 false exponent.natAbs
    if y.isInf then none else some y
  else if x == 0 then some x
  else if 0 ≤ exponent then none
  else scale (x / Float.ofScientific 1 false 308) (exponent + 308)
termination_by exponent.natAbs

/-- The double of a sign, a significand and a power of ten. -/
def double (isPositive : Bool) (significand : Nat) (exponent : Int) (s : List UInt8) : Step Json :=
  match scale (UInt64.ofNat significand).toFloat exponent with
  | none => stopBefore .numberOutOfRange s
  | some x => .ok (.number (.double (if isPositive then x else -x)), s)

/-- The exponent after its letter. -/
def exponentPart (isPositive : Bool) (significand : Nat) (start : Int) (s : List UInt8) : Step Json :=
  let (isUp, s) :=
    match s with
    | b :: rest => if b == byte '+' then (true, rest) else if b == byte '-' then (false, rest) else (true, s)
    | [] => (true, s)
  match s with
  | [] => stopBefore .endInValue []
  | b :: rest =>
    if isDigit b then
      let (value, _, rest) := takeDigits (2 ^ 31 - 1) (digit b) 1 rest
      match rest with
      | c :: after =>
        if isDigit c then
          if significand ≠ 0 && isUp then stopBefore .numberOutOfRange after
          else .ok (.number (.double (if isPositive then 0 else -0)), after.dropWhile isDigit)
        else double isPositive significand (if isUp then start + value else start - value) rest
      | [] => double isPositive significand (if isUp then start + value else start - value) rest
    else stopBefore .invalidNumber rest

/-- Whether the next byte is the letter of an exponent. -/
def startsExponent : List UInt8 → Bool
  | b :: _ => b == byte 'e' || b == byte 'E'
  | [] => false

/-- Whether the next byte is a digit. -/
def startsDigit : List UInt8 → Bool
  | b :: _ => isDigit b
  | [] => false

/-- An optional exponent after the digits of a double. -/
def afterFraction (isPositive : Bool) (significand : Nat) (exponent : Int) (s : List UInt8) : Step Json :=
  if startsExponent s then exponentPart isPositive significand exponent (s.drop 1)
  else double isPositive significand exponent s

/-- The digits after the point; those that no longer fit the significand are dropped. -/
def fraction (isPositive : Bool) (significand : Nat) (start : Int) (s : List UInt8) : Step Json :=
  let (value, taken, rest) := takeDigits maxSignificand significand 0 s
  if startsDigit rest then
    afterFraction isPositive value (start - taken) (rest.dropWhile isDigit)
  else if taken = 0 then
    stopAfterNext (if rest.isEmpty then .endInValue else .invalidNumber) rest
  else afterFraction isPositive value (start - taken) rest

/-- The value of an integer: a double where 64 bits do not hold it, and for a negative zero. -/
def integer (isPositive : Bool) (n : Nat) : Number :=
  if isPositive then .int n
  else if n = 0 ∨ 2 ^ 63 < n then .double (-(UInt64.ofNat n).toFloat)
  else .int (-(n : Int))

/-- What may follow the digits of an integer. -/
def afterInteger (isPositive : Bool) (n : Nat) (s : List UInt8) : Step Json :=
  match s with
  | b :: rest =>
    if b == byte '.' then fraction isPositive n 0 rest
    else if startsExponent s then exponentPart isPositive n 0 rest
    else .ok (.number (integer isPositive n), s)
  | [] => .ok (.number (integer isPositive n), s)

/-- An integer part that the significand cannot hold: the further digits only count. -/
def longInteger (isPositive : Bool) (significand : Nat) (s : List UInt8) : Step Json :=
  let rest := s.dropWhile isDigit
  let exponent : Int := s.length - rest.length
  match rest with
  | b :: after =>
    if b == byte '.' then fraction isPositive significand exponent after
    else afterFraction isPositive significand exponent rest
  | [] => afterFraction isPositive significand exponent rest

/-- A number after its sign. -/
def number (isPositive : Bool) : List UInt8 → Step Json
  | [] => stopBefore .endInValue []
  | b :: rest =>
    if b == byte '0' then
      if startsDigit rest then stopAfterNext .invalidNumber rest else afterInteger isPositive 0 rest
    else if isDigit b then
      let (value, _, rest) := takeDigits maxSignificand (digit b) 1 rest
      if startsDigit rest then longInteger isPositive value rest
      else afterInteger isPositive value rest
    else stopBefore .invalidNumber rest

/-! ## Strings -/

/-- The value of a hexadecimal digit. -/
def hexDigit (b : UInt8) : Option Nat :=
  if isDigit b then some (digit b)
  else if byte 'a' ≤ b && b ≤ byte 'f' then some (b.toNat - 'a'.toNat + 10)
  else if byte 'A' ≤ b && b ≤ byte 'F' then some (b.toNat - 'A'.toNat + 10)
  else none

/-- The value of four hexadecimal digits. -/
def hexUnit (a b c d : UInt8) : Option Nat := do
  return (← hexDigit a) * 4096 + (← hexDigit b) * 256 + (← hexDigit c) * 16 + (← hexDigit d)

/-- The byte of an escape of one letter. -/
def escapedByte (b : UInt8) : Option UInt8 :=
  if b == byte '"' || b == byte '\\' || b == byte '/' then some b
  else if b == byte 'b' then some 0x08
  else if b == byte 'f' then some 0x0C
  else if b == byte 'n' then some 0x0A
  else if b == byte 'r' then some 0x0D
  else if b == byte 't' then some 0x09
  else none

/-- The bytes of a code point, last first. -/
def codePointBytes (n : Nat) : List UInt8 := (String.singleton (Char.ofNat n)).toUTF8.data.toList.reverse

/-- The bytes of a string up to its closing quote; `kept` holds those read so far, last first. -/
def stringBytes (kept : List UInt8) : List UInt8 → Step (List UInt8)
  | [] => stopBefore .endInString []
  | b :: rest =>
    if b == byte '"' then .ok (kept.reverse, rest)
    else if b == byte '\\' then
      match rest with
      | [] => stopBefore .endInString []
      | e :: rest =>
        if e == byte 'u' then
          match rest with
          | h₁ :: h₂ :: h₃ :: h₄ :: rest =>
            match hexUnit h₁ h₂ h₃ h₄ with
            | none => stopBefore .invalidEscape rest
            | some unit =>
              if 0xDC00 ≤ unit && unit ≤ 0xDFFF then stopBefore .loneSurrogate rest
              else if unit < 0xD800 || 0xDFFF < unit then stringBytes (codePointBytes unit ++ kept) rest
              else
                match rest with
                | [] => stopBefore .endInString []
                | slash :: rest =>
                  if slash != byte '\\' then stopBefore .endOfSurrogatePair rest
                  else
                    match rest with
                    | [] => stopBefore .endInString []
                    | letter :: rest =>
                      if letter != byte 'u' then stopBefore .endOfSurrogatePair rest
                      else
                        match rest with
                        | l₁ :: l₂ :: l₃ :: l₄ :: rest =>
                          match hexUnit l₁ l₂ l₃ l₄ with
                          | none => stopBefore .invalidEscape rest
                          | some low =>
                            if 0xDC00 ≤ low && low ≤ 0xDFFF then
                              let point := (unit - 0xD800) * 0x400 + (low - 0xDC00) + 0x10000
                              stringBytes (codePointBytes point ++ kept) rest
                            else stopBefore .loneSurrogate rest
                        | _ => stopBefore .endInString []
          | _ => stopBefore .endInString []
        else
          match escapedByte e with
          | some escaped => stringBytes (escaped :: kept) rest
          | none => stopBefore .invalidEscape rest
    else if b < 0x20 then stopBefore .controlCharacter rest
    else stringBytes (b :: kept) rest

/-- The bytes after the characters in front that are written in UTF-8. -/
def afterCharacters (s : List UInt8) : List UInt8 :=
  match s with
  | [] => []
  | b :: rest =>
    match ByteArray.utf8DecodeChar? ⟨((b :: rest).take 4).toArray⟩ 0 with
    | some c => afterCharacters (rest.drop (c.utf8Size - 1))
    | none => b :: rest
termination_by s.length
decreasing_by simp only [List.length_drop, List.length_cons]; omega

/-- A string after its opening quote. Bytes that are no characters are told once the closing quote was
found. The stop lies in front of that quote's end by the length of the content from the first such byte on,
where an escape counts for the bytes that it stands for. -/
def string (s : List UInt8) : Except Stop (String × List UInt8) := do
  let (bytes, rest) ← stringBytes [] s
  match String.fromUTF8? ⟨bytes.toArray⟩ with
  | some text => .ok (text, rest)
  | none => .error ⟨.invalidCodePoint, rest.length + (afterCharacters bytes).length⟩

/-! ## Values -/

/-- Items after the first one, each led by a comma, up to the closing byte. -/
def moreItems (close : UInt8) (atEnd unexpected : Cause) (item : List UInt8 → Step α) :
    Nat → List α → List UInt8 → Except Stop (List α × List UInt8)
  | 0, _, s => stopBefore atEnd s
  | fuel + 1, kept, s =>
    match skipBlanks s with
    | [] => stopBefore atEnd []
    | b :: rest =>
      if b == close then .ok (kept.reverse, rest)
      else if b == byte ',' then
        match skipBlanks rest with
        | [] => stopBefore .endInValue []
        | c :: after =>
          if c == close then stopAfterNext .trailingComma (c :: after)
          else do
            let (a, s) ← item (c :: after)
            moreItems close atEnd unexpected item fuel (a :: kept) s
      else stopAfterNext unexpected (b :: rest)

/-- Items between an opening byte, already read, and the closing byte. Every comma takes a byte of the
text, so its length bounds their number. -/
def items (close : UInt8) (atEnd unexpected : Cause) (item : List UInt8 → Step α) (s : List UInt8) :
    Except Stop (List α × List UInt8) :=
  match skipBlanks s with
  | [] => stopBefore atEnd []
  | b :: rest =>
    if b == close then .ok ([], rest)
    else do
      let (a, s) ← item (b :: rest)
      moreItems close atEnd unexpected item (s.length + 1) [a] s

/-- A key, a colon and a value. -/
def member (value : List UInt8 → Step Json) :
    List UInt8 → Except Stop ((String × Json) × List UInt8)
  | [] => stopBefore .endInValue []
  | b :: rest =>
    if b == byte '"' then do
      let (key, s) ← string rest
      match skipBlanks s with
      | [] => stopBefore .endInObject []
      | c :: after =>
        if c == byte ':' then do
          let (v, s) ← value after
          .ok ((key, v), s)
        else stopAfterNext .expectedColon (c :: after)
    else stopAfterNext .keyNotString (b :: rest)

/-- A value with at most `depth` arrays and objects in one another. -/
def value (depth : Nat) (s : List UInt8) : Step Json :=
  match skipBlanks s with
  | [] => stopBefore .endInValue []
  | b :: rest =>
    if b == byte 'n' then word .null ['u', 'l', 'l'] rest
    else if b == byte 't' then word (.bool true) ['r', 'u', 'e'] rest
    else if b == byte 'f' then word (.bool false) ['a', 'l', 's', 'e'] rest
    else if b == byte '-' then number false rest
    else if isDigit b then number true (b :: rest)
    else if b == byte '"' then (string rest).map fun (text, s) => (.string text, s)
    else if b == byte '[' || b == byte '\x7b' then
      match depth with
      | 0 => stopAfterNext .nestingLimit (b :: rest)
      | depth + 1 =>
        if b == byte '[' then
          (items (byte ']') .endInList .expectedListCommaOrEnd (value depth) rest).map
            fun (vs, s) => (.array vs, s)
        else
          (items (byte '\x7d') .endInObject .expectedObjectCommaOrEnd (member (value depth)) rest).map
            fun (ms, s) => (ofMembers ms, s)
    else stopAfterNext .expectedValue (b :: rest)

end Reader

/-! ## Texts -/

/-- What is wrong with a JSON text, at which line and after how many bytes of it. -/
structure ReadError where
  cause : Reader.Cause
  line : Nat
  column : Nat
  deriving DecidableEq, Repr

def ReadError.message (e : ReadError) : String :=
  e.cause.message ++ " at line " ++ toString e.line ++ " column " ++ toString e.column

/-- The line and column of a stop. -/
def ReadError.ofStop (bytes : List UInt8) (stop : Reader.Stop) : ReadError :=
  let before := bytes.take (bytes.length - stop.left)
  ⟨stop.cause, before.count (Reader.byte '\n') + 1,
    (before.reverse.takeWhile (· != Reader.byte '\n')).length⟩

/-- How many arrays and objects may stand in one another. -/
def maxNesting : Nat := 127

/-- One value, with nothing but blanks around it. -/
def read (bytes : List UInt8) : Except ReadError Json :=
  let whole : Except Reader.Stop Json := do
    let (v, rest) ← Reader.value maxNesting bytes
    match Reader.skipBlanks rest with
    | [] => .ok v
    | rest => Reader.stopAfterNext .trailingCharacters rest
  whole.mapError (ReadError.ofStop bytes)

/-- The UTF-8 bytes of a text. -/
def bytesOf (text : String) : List UInt8 := text.toUTF8.data.toList

end Json
end MessageRouter
