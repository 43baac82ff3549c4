import MessageRouter.Text.Blank
import MessageRouter.Text.Numeral
import MessageRouter.Text.Quoted
/-!
# `Schema.Header` — the opcodes that head messages

* `Header`: a number of 32 bits and the base in which it was written.
* `Header.read`: a literal with an optional base mark, in which underscores may stand anywhere.
* `Header.opcode`: the literal in generated code.
-/
namespace MessageRouter

/-- The base of a literal. -/
inductive Header.Base where
  | bin
  | oct
  | dec
  | hex
  deriving DecidableEq, Repr

/-- The opcode at the head of a message, as it was written. -/
structure Header where
  value : UInt32
  base : Header.Base
  deriving DecidableEq, Repr

namespace Header

def Base.radix : Base → Nat
  | .bin => 2
  | .oct => 8
  | .dec => 10
  | .hex => 16

def Base.name : Base → String
  | .bin => "bin"
  | .oct => "oct"
  | .dec => "dec"
  | .hex => "hex"

/-- Why a text is no literal; `text` is without the blanks around it. -/
inductive Error where
  | noDigits (text : String)
  | numeral (text : String) (cause : Text.NumeralError)
  deriving DecidableEq, Repr

def Error.message : Error → String
  | .noDigits text => "numeric literal has no digits: " ++ Text.quoted text
  | .numeral text cause =>
    "invalid 32-bit opcode literal " ++ Text.quoted text ++ ": " ++ cause.message

/-- The base that a mark in front announces, and the digits after it. -/
def splitBase : List Char → Base × List Char
  | '0' :: mark :: rest =>
    if mark = 'x' ∨ mark = 'X' then (.hex, rest)
    else if mark = 'b' ∨ mark = 'B' then (.bin, rest)
    else if mark = 'o' ∨ mark = 'O' then (.oct, rest)
    else (.dec, '0' :: mark :: rest)
  | cs => (.dec, cs)

/-- A literal between blanks. -/
def read (text : String) : Except Error Header :=
  let cs := Text.trim text.toList
  let (base, marked) := splitBase cs
  let digits := marked.filter (· ≠ '_')
  if digits.isEmpty then .error (.noDigits (String.ofList cs))
  else
    match Text.readNat base.radix (UInt32.size - 1) digits with
    | .ok n => .ok ⟨UInt32.ofNat n, base⟩
    | .error cause => .error (.numeral (String.ofList cs) cause)

/-- The literal in generated code, which knows decimal and hexadecimal only. -/
def opcode (h : Header) : String :=
  match h.base with
  | .dec => toString h.value.toNat
  | .bin | .oct | .hex => "0x" ++ Text.hex h.value.toNat

end Header
end MessageRouter
