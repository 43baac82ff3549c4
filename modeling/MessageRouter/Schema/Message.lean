import MessageRouter.Schema.FieldType
import MessageRouter.Schema.Header
/-!
# `Schema.Message` — fields, messages and their registry

* `Field`: a name and a type.
* `Message`: named fields under a header. A struct without a header cannot be received.
* `Registry`: the messages of a program, no two of one name.
* `Registry.layout`: the message of a name with the header it must have to be received.
* `keptFields`: the fields of which a bounce is sure to keep the whole value.
-/
namespace MessageRouter

/-- A field of a message or of a contract's state. -/
structure Field where
  name : String
  type : FieldType
  deriving DecidableEq, Repr

/-- A message type. -/
structure Message where
  name : String
  /-- None for a plain struct. -/
  header : Option Header
  fields : List Field
  deriving DecidableEq, Repr

/-! ## Bits of a message -/

/-- Bits of the opcode at the head of a message. -/
def opcodeBits : Nat := 32

/-- Bits of the marker in front of a bounced message. -/
def bounceMarkerBits : Nat := 32

/-- Bits that a bounce keeps of a message, its opcode included. -/
def bouncedBits : Nat := 256

/-- The longest beginning of some fields whose widths sum to at most `room`. -/
def fieldsWithin (room : Nat) : List Field → List Field
  | [] => []
  | f :: rest =>
    if f.type.maxBits ≤ room then f :: fieldsWithin (room - f.type.maxBits) rest else []

/-- The fields of which a bounce is sure to keep the whole value. -/
def keptFields (fields : List Field) : List Field := fieldsWithin (bouncedBits - opcodeBits) fields

/-- The bits that some fields take at most. -/
def totalBits : List Field → Nat
  | [] => 0
  | f :: rest => f.type.maxBits + totalBits rest

theorem fieldsWithin_prefix (room : Nat) (fields : List Field) : fieldsWithin room fields <+: fields := by
  induction fields generalizing room with
  | nil => exact List.prefix_refl []
  | cons f rest ih =>
    rw [fieldsWithin]
    split
    · exact List.cons_prefix_cons.mpr ⟨rfl, ih _⟩
    · exact List.nil_prefix

/-- What is kept is a beginning of the fields. -/
theorem keptFields_prefix (fields : List Field) : keptFields fields <+: fields :=
  fieldsWithin_prefix _ fields

theorem totalBits_fieldsWithin_le (room : Nat) (fields : List Field) :
    totalBits (fieldsWithin room fields) ≤ room := by
  induction fields generalizing room with
  | nil => exact Nat.zero_le _
  | cons f rest ih =>
    rw [fieldsWithin]
    split
    · next h =>
      have := ih (room - f.type.maxBits)
      simp only [totalBits]
      omega
    · exact Nat.zero_le _

/-! ## Registry -/

/-- Why a message cannot be received. -/
inductive LayoutError where
  | unknown (message : String)
  | noHeader (message : String)
  deriving DecidableEq, Repr

def LayoutError.message : LayoutError → String
  | unknown name => "Invalid allocation: " ++ name ++ " (no binary layout registered)"
  | noHeader name => "Invalid allocation: " ++ name ++ " (no header opcode registered)"

/-- The messages of a program, in the order of their declaration. -/
structure Registry where
  messages : List Message
  deriving Repr

/-- A message that can be received. -/
structure Layout where
  message : Message
  header : Header
  deriving DecidableEq, Repr

namespace Registry

def empty : Registry := ⟨[]⟩

def find? (r : Registry) (name : String) : Option Message := r.messages.find? (·.name == name)

/-- The registry with a message of a new name. -/
def insert? (r : Registry) (m : Message) : Option Registry :=
  if (r.find? m.name).isSome then none else some ⟨r.messages ++ [m]⟩

/-- The messages in the order of their names. -/
def sorted (r : Registry) : List Message := r.messages.mergeSort fun a b => a.name ≤ b.name

/-- The message of a name with the header it must have to be received. -/
def layout (r : Registry) (name : String) : Except LayoutError Layout :=
  match r.find? name with
  | none => .error (.unknown name)
  | some m =>
    match m.header with
    | none => .error (.noHeader name)
    | some h => .ok ⟨m, h⟩

/-- A layout is that of a registered message of the name, with its header. -/
theorem layout_eq_ok_iff {r : Registry} {name : String} {l : Layout} :
    r.layout name = .ok l ↔ r.find? name = some l.message ∧ l.message.header = some l.header := by
  unfold layout
  cases r.find? name with
  | none => simp
  | some m =>
    obtain ⟨mname, header, fields⟩ := m
    obtain ⟨lm, lh⟩ := l
    cases header with
    | none =>
      simp only [Option.some.injEq]
      constructor
      · intro h; exact nomatch h
      · rintro ⟨rfl, h⟩; exact nomatch h
    | some h =>
      simp only [Except.ok.injEq, Layout.mk.injEq, Option.some.injEq]
      constructor
      · rintro ⟨rfl, rfl⟩; exact ⟨rfl, rfl⟩
      · rintro ⟨rfl, hh⟩; exact ⟨rfl, Option.some.inj hh⟩

end Registry

/-! ## Layouts -/

/-- The fields of a message, whole or as a bounce keeps them. -/
def Layout.fields (l : Layout) (isPartial : Bool) : List Field :=
  if isPartial then keptFields l.message.fields else l.message.fields

end MessageRouter
