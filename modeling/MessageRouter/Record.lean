import MessageRouter.Json.Printer
import MessageRouter.Schema.Message
import MessageRouter.Value
/-!
# `Record` — named values in order

A contract's state and a decoded message are records.

* `Record`: entries in order; of several entries of one name the first counts.
* `Record.get?`, `Record.set?`, `Record.put`: reading, replacing, and replacing or adding.
* `Record.zeroed`: what a contract starts with.
* `Record.toJson`, `Record.ofJson`: states as JSON objects; fields left out are zero.
-/
namespace MessageRouter

/-- Named values in order. -/
structure Record where
  entries : List (String × Value)

namespace Record

def empty : Record := ⟨[]⟩

/-- What a contract with some fields starts with. -/
def zeroed (fields : List Field) : Record := ⟨fields.map fun f => (f.name, .zeroOf f.type)⟩

/-- One more entry at the end. -/
def push (r : Record) (name : String) (value : Value) : Record := ⟨r.entries ++ [(name, value)]⟩

/-- The value of a name. -/
def get? (r : Record) (name : String) : Option Value :=
  (r.entries.find? fun e => e.1 == name).map (·.2)

/-- The entries with the first one of a name changed. -/
def setFirst (name : String) (value : Value) : List (String × Value) → Option (List (String × Value))
  | [] => none
  | (n, v) :: rest =>
    if n = name then some ((n, value) :: rest)
    else (setFirst name value rest).map ((n, v) :: ·)

/-- The record with the value of a name replaced; none without that name. -/
def set? (r : Record) (name : String) (value : Value) : Option Record :=
  (setFirst name value r.entries).map .mk

/-- The record with the value of a name replaced, or added at the end. -/
def put (r : Record) (name : String) (value : Value) : Record :=
  (r.set? name value).getD (r.push name value)

/-- Without two entries of one name, every entry is the one found by its name. -/
theorem get?_of_mem {entries : List (String × Value)} (hnames : (entries.map (·.1)).Nodup)
    {e : String × Value} (he : e ∈ entries) : get? ⟨entries⟩ e.1 = some e.2 := by
  have hfind : entries.find? (·.1 == e.1) = some e := by
    induction entries with
    | nil => cases he
    | cons first rest ih =>
      rw [List.map_cons, List.nodup_cons] at hnames
      rcases List.mem_cons.mp he with rfl | he
      · exact List.find?_cons_of_pos (beq_self_eq_true _)
      · have hne : first.1 ≠ e.1 := by
          intro heq
          exact hnames.1 (List.mem_map.mpr ⟨e, he, heq.symm⟩)
        rw [List.find?_cons_of_neg (by simpa using hne)]
        exact ih hnames.2 he
  rw [get?, hfind, Option.map_some]

theorem setFirst_append_cons {name : String} {value old : Value} {front : List (String × Value)}
    (hfront : ∀ e ∈ front, e.1 ≠ name) (back : List (String × Value)) :
    setFirst name value (front ++ (name, old) :: back) = some (front ++ (name, value) :: back) := by
  induction front with
  | nil => exact if_pos rfl
  | cons e front ih =>
    obtain ⟨hne, hfront⟩ := List.forall_mem_cons.mp hfront
    rw [List.cons_append, setFirst, if_neg hne, ih hfront]
    rfl

/-- What is set is the value behind the first entry of the name, and all else stays. -/
theorem setFirst_eq_some_iff {name : String} {value : Value} {es es' : List (String × Value)} :
    setFirst name value es = some es' ↔ ∃ front old back, es = front ++ (name, old) :: back ∧
      (∀ e ∈ front, e.1 ≠ name) ∧ es' = front ++ (name, value) :: back := by
  constructor
  · intro h
    induction es generalizing es' with
    | nil => cases h
    | cons e rest ih =>
      obtain ⟨n, old⟩ := e
      rw [setFirst] at h
      split at h
      · next hn =>
        obtain rfl := Option.some.inj h
        subst hn
        exact ⟨[], old, rest, rfl, nofun, rfl⟩
      · next hn =>
        obtain ⟨rest', hrest, rfl⟩ := Option.map_eq_some_iff.mp h
        obtain ⟨front, old', back, rfl, hfront, rfl⟩ := ih hrest
        exact ⟨(n, old) :: front, old', back, rfl, List.forall_mem_cons.mpr ⟨hn, hfront⟩, rfl⟩
  · rintro ⟨front, old, back, rfl, hfront, rfl⟩
    exact setFirst_append_cons hfront back

/-- Setting a name that is there makes the value readable and leaves the other names alone. -/
theorem get?_of_set? {r r' : Record} {name : String} {value : Value}
    (h : r.set? name value = some r') (other : String) :
    r'.get? other = if other = name then some value else r.get? other := by
  obtain ⟨es', hes, rfl⟩ := Option.map_eq_some_iff.mp h
  obtain ⟨front, old, back, hr, hfront, rfl⟩ := setFirst_eq_some_iff.mp hes
  rw [get?, get?, hr, List.find?_append, List.find?_append, List.find?_cons, List.find?_cons]
  by_cases ho : other = name
  · -- no entry in front of the one that is set has the name
    subst ho
    have hnone : front.find? (fun e => e.1 == other) = none :=
      List.find?_eq_none.mpr fun e he => by simpa using hfront e he
    simp [hnone]
  · simp [ho, beq_false_of_ne (Ne.symm ho)]

/-- Setting keeps the names. -/
theorem names_of_set? {r r' : Record} {name : String} {value : Value}
    (h : r.set? name value = some r') : r'.entries.map (·.1) = r.entries.map (·.1) := by
  obtain ⟨es', hes, rfl⟩ := Option.map_eq_some_iff.mp h
  obtain ⟨front, old, back, hr, -, rfl⟩ := setFirst_eq_some_iff.mp hes
  rw [hr]
  simp

/-! ## JSON -/

/-- The record as an object. -/
def toJson (r : Record) : Json := .ofMembers (r.entries.map fun e => (e.1, e.2.toJson))

/-- Why a JSON value is no state of a contract. -/
inductive ReadError where
  | notObject (value : Json)
  | unknownField (name : String)
  | notInteger (field : String) (number : Json.Number)
  | badNumeral (field text : String) (cause : Text.NumeralError)
  | wrongKind (field : Field) (value : Json)

def ReadError.message : ReadError → String
  | notObject v => "state must be a JSON object, got " ++ v.compact
  | unknownField name => "unknown state field " ++ Text.quoted name
  | notInteger field n => "field " ++ Text.quoted field ++ ": " ++ n.text ++ " is not an integer"
  | badNumeral field text cause =>
    "field " ++ Text.quoted field ++ ": " ++ Text.quoted text ++ ": " ++ cause.message
  | wrongKind f v =>
    "field " ++ Text.quoted f.name ++ " of type " ++ f.type.name ++ " cannot hold " ++ v.compact

/-- A decimal text of 128 bits. -/
def readInt128 (text : String) : Except Text.NumeralError Int128 := do
  let i ← Text.readInt 10 (2 ^ 127) (2 ^ 127 - 1) text.toList
  return ⟨BitVec.ofInt 128 i⟩

/-- The value of a field from the JSON value given for it, if any. -/
def fieldOfJson (f : Field) : Option Json → Except ReadError Value
  | none => .ok (.zeroOf f.type)
  | some v =>
    match Value.Kind.ofType f.type, v with
    | .bool, .bool b => .ok (.bool b)
    | .int, .number n =>
      match n.asInt64? with
      | some i => .ok (.int (.ofInt64 i))
      | none => .error (.notInteger f.name n)
    | .int, .string s => ((readInt128 s).mapError (.badNumeral f.name s)).map .int
    | _, _ => .error (.wrongKind f v)

/-- The state of a contract with some fields from JSON; `null` is the zeroed state. -/
def ofJson (fields : List Field) : Json → Except ReadError Record
  | .null => .ok (zeroed fields)
  | .object members => do
    match members.find? fun m => !fields.any (·.name == m.1) with
    | some m => throw (.unknownField m.1)
    | none =>
      let entries ← fields.mapM fun f => do
        return (f.name, ← fieldOfJson f (Json.member? f.name members))
      return ⟨entries⟩
  | v => .error (.notObject v)

end Record
end MessageRouter
