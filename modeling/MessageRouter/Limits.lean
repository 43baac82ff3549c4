import MessageRouter.Text.Numeral
/-!
# `Limits` — how large documents and outputs may be

* `Limits`: the most bytes of a program document and of the generated text.
* `Limits.ofSettings`: the limits that the texts of two settings ask for.
-/
namespace MessageRouter

/-- The most bytes of a program document and of the generated text. -/
structure Limits where
  document : Nat
  output : Nat
  deriving DecidableEq, Repr

namespace Limits

/-- Four mebibytes. -/
def defaultDocument : Nat := 4 * 2 ^ 20

/-- Sixteen mebibytes. -/
def defaultOutput : Nat := 16 * 2 ^ 20

/-- The number of a setting; a setting that is missing, zero or no number of 64 bits gives the default. -/
def ofSetting (default : Nat) : Option String → Nat
  | none => default
  | some text =>
    match Text.readNat 10 (2 ^ 64 - 1) text.toList with
    | .ok n => if n = 0 then default else n
    | .error _ => default

def ofSettings (document output : Option String) : Limits :=
  ⟨ofSetting defaultDocument document, ofSetting defaultOutput output⟩

end Limits
end MessageRouter
