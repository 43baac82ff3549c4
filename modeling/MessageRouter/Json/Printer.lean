import MessageRouter.Json.Basic
import MessageRouter.Decimal.Form
import MessageRouter.Text.Quoted
/-!
# `Json.Printer` — the texts of a JSON value

* `Json.compact`: JSON text without blanks.
* `Json.tagged`: a text for messages, in which every value names its kind.
-/
namespace MessageRouter
namespace Json

/-- Doubles are positional while their leading exponent is between -5 and 15. -/
def doubleForm : Decimal.Form := ⟨-5, 15⟩

def Number.text : Number → String
  | .int i => toString i
  | .double x => doubleForm.double x

/-! ## JSON text -/

/-- One character of a JSON string: only the quote, the backslash and control characters are escaped. -/
def escape (c : Char) : List Char :=
  if c = '"' then ['\\', '"']
  else if c = '\\' then ['\\', '\\']
  else if c = '\n' then ['\\', 'n']
  else if c = '\r' then ['\\', 'r']
  else if c = '\t' then ['\\', 't']
  else if c = '\x08' then ['\\', 'b']
  else if c = '\x0c' then ['\\', 'f']
  else if c.toNat < 0x20 then '\\' :: 'u' :: (Nat.toDigits 16 c.toNat).leftpad 4 '0'
  else [c]

/-- A JSON string with its quotes. -/
def stringText (s : String) : String :=
  String.ofList ('"' :: s.toList.flatMap escape ++ ['"'])

mutual

/-- JSON text without blanks. -/
def compact : Json → String
  | .null => "null"
  | .bool b => toString b
  | .number n => n.text
  | .string s => stringText s
  | .array items => "[" ++ String.intercalate "," (compactItems items) ++ "]"
  | .object members => "\x7b" ++ String.intercalate "," (compactMembers members) ++ "\x7d"

def compactItems : List Json → List String
  | [] => []
  | v :: rest => compact v :: compactItems rest

def compactMembers : List (String × Json) → List String
  | [] => []
  | (key, v) :: rest => (stringText key ++ ":" ++ compact v) :: compactMembers rest

end

theorem compactItems_eq_map (items : List Json) : compactItems items = items.map compact := by
  induction items with
  | nil => rfl
  | cons v rest ih => simp [compactItems, ih]

theorem compactMembers_eq_map (members : List (String × Json)) :
    compactMembers members = members.map fun m => stringText m.1 ++ ":" ++ compact m.2 := by
  induction members with
  | nil => rfl
  | cons m rest ih => obtain ⟨key, v⟩ := m; simp [compactMembers, ih]

/-! ## Tagged text -/

mutual

/-- A text in which every value names its kind. -/
def tagged : Json → String
  | .null => "Null"
  | .bool b => "Bool(" ++ toString b ++ ")"
  | .number n => "Number(" ++ n.text ++ ")"
  | .string s => "String(" ++ Text.quoted s ++ ")"
  | .array items => "Array [" ++ String.intercalate ", " (taggedItems items) ++ "]"
  | .object members => "Object \x7b" ++ String.intercalate ", " (taggedMembers members) ++ "\x7d"

def taggedItems : List Json → List String
  | [] => []
  | v :: rest => tagged v :: taggedItems rest

def taggedMembers : List (String × Json) → List String
  | [] => []
  | (key, v) :: rest => (Text.quoted key ++ ": " ++ tagged v) :: taggedMembers rest

end

end Json
end MessageRouter
