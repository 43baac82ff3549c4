import MessageRouter.Decimal.Shortest
/-!
# `Decimal.Form` — how the digits of a number are laid out

* `Form`: the leading exponents that are written positionally.
* `Form.layOut`: digits and a power of ten as text.
* `Form.double`: a finite double as text.
-/
namespace MessageRouter
namespace Decimal

/-- A layout: the leading exponents from `lowest` to `highest` are written positionally. -/
structure Form where
  lowest : Int
  highest : Int
  deriving DecidableEq, Repr

/-- An exponent with its sign. -/
def signedExponent (e : Int) : String :=
  if e < 0 then toString e else "+" ++ toString e

/-- The number `digits · 10 ^ k`; a positional text has at least one digit on either side of its point. -/
def Form.layOut (form : Form) (digits : Nat) (k : Int) : String :=
  let cs := (Nat.toDigits 10 digits)
  let leading := (cs.length : Int) - 1 + k
  if leading < form.lowest ∨ form.highest < leading then
    let fraction := cs.drop 1
    let mantissa := if fraction.isEmpty then cs else cs.take 1 ++ '.' :: fraction
    String.ofList mantissa ++ "e" ++ signedExponent leading
  else if 0 ≤ k then
    String.ofList (cs ++ List.replicate k.toNat '0') ++ ".0"
  else if 0 ≤ leading then
    let whole := leading.toNat + 1
    String.ofList (cs.take whole ++ '.' :: cs.drop whole)
  else
    "0." ++ String.ofList (List.replicate (-leading - 1).toNat '0' ++ cs)

/-- A finite double by its shortest digits. -/
def Form.double (form : Form) (x : Float) : String :=
  let bits := x.toBits
  let sign := if bits.toNat / 2 ^ 63 = 1 then "-" else ""
  let b := Binary.ofBits bits
  if b.m = 0 then sign ++ "0.0"
  else
    let (digits, k) := shortest b
    sign ++ form.layOut digits k

end Decimal
end MessageRouter
