import MessageRouter.Int128
/-!
# `Decimal.Shortest` — the shortest decimal that reads back as a binary number

A positive number `m · 2 ^ q` of 53 bits is read back from every decimal of its rounding interval: the
numbers nearer to it than to its two neighbours, the ends included iff `m` is even. The shortest decimal
is a point of that interval on the coarsest decimal grid that has one, the nearer of two, and of two
equally near ones the one with an even last digit.

* `Binary`: `m` and `q`, and `Binary.ofBits`, which takes them from the 64-bit encoding.
* `Window`: the rounding interval over a common denominator.
* `Window.pick`: the best point of the interval on one grid.
* `shortest`: the digits and the power of ten.
-/
namespace MessageRouter
namespace Decimal

/-- The number `m · 2 ^ q`; `isPowerEdge` says that the neighbour below is half as far as the one above. -/
structure Binary where
  m : Nat
  q : Int
  isPowerEdge : Bool
  deriving DecidableEq, Repr

/-- The magnitude of a finite double, from its encoding: 52 bits of fraction and 11 of exponent. -/
def Binary.ofBits (bits : UInt64) : Binary :=
  let fraction : Nat := bits.toNat % 2 ^ 52
  let exponent : Nat := bits.toNat / 2 ^ 52 % 2 ^ 11
  if exponent = 0 then ⟨fraction, -1074, false⟩
  else ⟨fraction + 2 ^ 52, (exponent : Int) - 1075, fraction = 0 && 1 < exponent⟩

/-- A rounding interval: its ends and its middle over one denominator. -/
structure Window where
  low : Nat
  middle : Nat
  high : Nat
  denominator : Nat
  isClosed : Bool
  deriving DecidableEq, Repr

/-- The rounding interval in quarters of the last binary place. -/
def Binary.window (b : Binary) : Window :=
  let scale := 2 ^ (b.q - 2).toNat
  ⟨(4 * b.m - if b.isPowerEdge then 1 else 2) * scale, 4 * b.m * scale, (4 * b.m + 2) * scale,
    2 ^ (2 - b.q).toNat, b.m % 2 = 0⟩

/-- The interval measured in units of `10 ^ k`. -/
def Window.inUnits (w : Window) (k : Int) : Window :=
  let up := 10 ^ (-k).toNat
  ⟨w.low * up, w.middle * up, w.high * up, w.denominator * 10 ^ k.toNat, w.isClosed⟩

/-- Whether the whole number `n` lies in the interval. -/
def Window.contains (w : Window) (n : Nat) : Bool :=
  let scaled := n * w.denominator
  (w.low < scaled && scaled < w.high) || (w.isClosed && (scaled = w.low || scaled = w.high))

/-- The whole number of the interval that is nearest to the middle, if there is one. -/
def Window.pick (w : Window) : Option Nat :=
  let below := w.middle / w.denominator
  match w.contains below, w.contains (below + 1) with
  | false, false => none
  | true, false => some below
  | false, true => some (below + 1)
  | true, true =>
    let twice := 2 * (w.middle % w.denominator)
    if twice < w.denominator || (twice = w.denominator && below % 2 = 0) then some below
    else some (below + 1)

/-- The powers of ten tried, from the coarsest that a double can need to the finest. -/
def grids : List Int := (List.range 634).map fun (i : Nat) => 309 - (i : Int)

/-- The digits and the power of ten of the shortest decimal. -/
def shortest (b : Binary) : Nat × Int :=
  (grids.findSome? fun k => ((b.window.inUnits k).pick).map (·, k)).getD (0, 0)

end Decimal
end MessageRouter
