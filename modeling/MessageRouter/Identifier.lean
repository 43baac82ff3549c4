import MessageRouter.Text.Quoted
/-!
# `Identifier` — which names are allowed

* `Identifier.Role`: what a name is for. Fields, bindings and locals may start with an underscore;
  messages and contracts may not, because their names stand inside generated function names.
* `Identifier.check`: the rule, with its first offence.
* `Identifier.IsValid`: the rule as a predicate; `check_eq_ok_iff` ties the two together.
-/
namespace MessageRouter
namespace Identifier

/-- What a name is for. -/
inductive Role where
  | localName
  | typeName
  deriving DecidableEq, Repr

def Role.label : Role → String
  | .localName => "local name"
  | .typeName => "type name"

/-- A letter of ASCII. -/
def isLetter (c : Char) : Bool := ('a' ≤ c && c ≤ 'z') || ('A' ≤ c && c ≤ 'Z')

/-- The characters that may start a name. -/
def Role.isStart : Role → Char → Bool
  | .localName, c => isLetter c || c == '_'
  | .typeName, c => isLetter c

/-- The characters that may stand in a name. -/
def isPart (c : Char) : Bool := isLetter c || ('0' ≤ c && c ≤ '9') || c == '_'

/-- Why a name is not allowed. -/
inductive Error where
  | empty (role : Role)
  | badStart (role : Role) (name : String)
  | badCharacter (role : Role) (name : String) (bad : Char)
  deriving DecidableEq, Repr

def Error.message : Error → String
  | .empty role => role.label ++ " must be non-empty"
  | .badStart role name =>
    role.label ++ " " ++ Text.quoted name ++ " must start with " ++
      match role with
      | .localName => "[A-Za-z_]"
      | .typeName => "[A-Za-z]"
  | .badCharacter role name bad =>
    role.label ++ " " ++ Text.quoted name ++ " contains " ++ Text.quotedChar bad ++
      " (allowed [A-Za-z0-9_])"

/-- The first offence of a name, if any. -/
def check (role : Role) (name : String) : Except Error Unit :=
  match name.toList with
  | [] => .error (.empty role)
  | c :: cs =>
    if role.isStart c then
      match (c :: cs).find? fun c => !isPart c with
      | some bad => .error (.badCharacter role name bad)
      | none => .ok ()
    else .error (.badStart role name)

/-- A name that starts and goes on with allowed characters. -/
def IsValid (role : Role) (name : String) : Prop :=
  (∃ c, name.toList.head? = some c ∧ role.isStart c = true) ∧
    ∀ c ∈ name.toList, isPart c = true

/-- The check passes exactly the valid names. -/
theorem check_eq_ok_iff {role : Role} {name : String} :
    check role name = .ok () ↔ IsValid role name := by
  unfold check IsValid
  cases name.toList with
  | nil => simp
  | cons c cs =>
    by_cases hstart : role.isStart c = true
    · simp only [hstart, if_true]
      cases hfind : (c :: cs).find? fun c => !isPart c with
      | none =>
        have hall : ∀ x ∈ c :: cs, isPart x = true := by
          intro x hx
          simpa using List.find?_eq_none.mp hfind x hx
        exact ⟨fun _ => ⟨⟨c, rfl, hstart⟩, hall⟩, fun _ => rfl⟩
      | some bad =>
        have hbad : isPart bad = false := by simpa using List.find?_some hfind
        constructor
        · intro h; simp at h
        · rintro ⟨_, hall⟩
          rw [hall bad (List.mem_of_find?_eq_some hfind)] at hbad
          simp at hbad
    · simp only [hstart]
      constructor
      · intro h; simp at h
      · rintro ⟨⟨x, hx, hs⟩, _⟩
        simp only [List.head?_cons, Option.some.injEq] at hx
        exact absurd (hx ▸ hs) hstart

end Identifier
end MessageRouter
