import MessageRouter.Body.Reader
import MessageRouter.Proofs.Fallible
/-!
# `Proofs.Body.Names` — the names in a body

* `BodyIsNamed`, `BodyHasNamedPlaces`: the locals and the places of a body have allowed names.
* `Place.read_eq_ok_iff`: a text is read as the place that it is split into, if that has allowed names.
-/
namespace MessageRouter

open Identifier (IsValid)

/-! ## Allowed names -/

mutual

/-- The locals of a statement have allowed names. -/
def Stmt.IsNamed : Stmt → Prop
  | .declare name _ => IsValid .localName name
  | .branch _ thenBody elseBody => BodyIsNamed thenBody ∧ BodyIsNamed elseBody
  | .set .. | .throw _ | .ret => True

/-- The locals of a body have allowed names. -/
def BodyIsNamed : List Stmt → Prop
  | [] => True
  | s :: rest => s.IsNamed ∧ BodyIsNamed rest

end

/-- Both names of a place are allowed. -/
structure Place.IsNamed (p : Place) : Prop where
  root : IsValid .localName p.root
  field : ∀ name, p.field = some name → IsValid .localName name

/-- The places of an operand have allowed names. -/
def Operand.HasNamedPlaces : Operand → Prop
  | .int _ | .bool _ => True
  | .place p | .bits p => p.IsNamed
  | .unary _ x => x.HasNamedPlaces
  | .binary _ a b => a.HasNamedPlaces ∧ b.HasNamedPlaces

mutual

/-- The places of a statement have allowed names. -/
def Stmt.HasNamedPlaces : Stmt → Prop
  | .declare _ value => value.HasNamedPlaces
  | .set target value => target.IsNamed ∧ value.HasNamedPlaces
  | .branch cond thenBody elseBody =>
    cond.HasNamedPlaces ∧ BodyHasNamedPlaces thenBody ∧ BodyHasNamedPlaces elseBody
  | .throw _ | .ret => True

/-- The places of a body have allowed names. -/
def BodyHasNamedPlaces : List Stmt → Prop
  | [] => True
  | s :: rest => s.HasNamedPlaces ∧ BodyHasNamedPlaces rest

end

/-! ## Places -/

/-- A text is read as the place that it is split into, if that has allowed names. -/
theorem Place.read_eq_ok_iff {text : String} {p : Place} :
    read text = .ok p ↔ split text = (p.root, p.field) ∧ p.IsNamed := by
  unfold read
  generalize split text = parts
  obtain ⟨root, field⟩ := parts
  constructor
  · intro h
    obtain ⟨_, hroot, h⟩ := Fallible.bind_eq_ok_iff.mp h
    have hvalid := Identifier.check_eq_ok_iff.mp hroot
    cases field with
    | none =>
      obtain rfl := Except.ok.inj h
      exact ⟨rfl, hvalid, nofun⟩
    | some name =>
      obtain ⟨_, hname, h⟩ := Fallible.bind_eq_ok_iff.mp h
      obtain rfl := Except.ok.inj h
      refine ⟨rfl, hvalid, ?_⟩
      rintro _ ⟨⟩
      exact Identifier.check_eq_ok_iff.mp hname
  · rintro ⟨hparts, hp⟩
    obtain ⟨rfl, rfl⟩ := Prod.mk.inj hparts
    have hroot : Identifier.check .localName p.root = .ok () := Identifier.check_eq_ok_iff.mpr hp.root
    refine Fallible.bind_eq_ok_iff.mpr ⟨(), hroot, ?_⟩
    obtain ⟨root, field⟩ := p
    cases field with
    | none => rfl
    | some name =>
      have hname : Identifier.check .localName name = .ok () :=
        Identifier.check_eq_ok_iff.mpr (hp.field name rfl)
      exact Fallible.bind_eq_ok_iff.mpr ⟨(), hname, rfl⟩

end MessageRouter
