import MessageRouter.Json.Reader
import MessageRouter.Proofs.Text.Digits
/-!
# `Proofs.Json.Grammar` — the texts of a JSON value

A value has many texts: blanks stand wherever they may, a character of a string is written as it is or with an
escape, and the members of an object come in any order. Doubles have no texts here.

* `Json.IsBlanks`, `Json.IsCharText`, `Json.IsStringText`: blanks, characters and strings.
* `Json.IsListing`: pieces with commas between them.
* `Json.IsText`, `Json.IsDocument`: values, and values with blanks around them.
* `Json.nesting`: how many arrays and objects of a value stand in one another.
* `Json.nesting_ofMembers_le_iff`: sorting the members of an object changes nothing about that.
-/
namespace MessageRouter
namespace Json

open Reader (byte)
open Text (IsDigit)

/-! ## Blanks and strings -/

/-- Nothing but spaces, line ends and tabs. -/
def IsBlanks (bytes : List UInt8) : Prop := ∀ b ∈ bytes, b ∈ [' ', '\n', '\r', '\t'].map byte

/-- The letters of escapes and the characters that they stand for. -/
def letterEscapes : List (Char × Char) :=
  [('"', '"'), ('\\', '\\'), ('/', '/'), ('b', '\x08'), ('f', '\x0c'), ('n', '\n'), ('r', '\r'), ('t', '\t')]

/-- Four hexadecimal digits, in either case, and the number that they spell. -/
inductive IsUnit : List UInt8 → Nat → Prop where
  | mk {a b c d : Char} {i j k l : Nat} (ha : IsDigit 16 a i) (hb : IsDigit 16 b j) (hc : IsDigit 16 c k)
      (hd : IsDigit 16 d l) : IsUnit [byte a, byte b, byte c, byte d] (i * 4096 + j * 256 + k * 16 + l)

/-- The texts of a character inside a string: what it is in UTF-8, unless it has to be escaped; a backslash and a
letter; a backslash, a `u` and the digits of its code point; or two of these for its surrogates. -/
inductive IsCharText : Char → List UInt8 → Prop where
  | plain {c : Char} (hcontrol : 0x20 ≤ c.toNat) (hquote : c ≠ '"') (hslash : c ≠ '\\') :
      IsCharText c (String.utf8EncodeChar c)
  | letter {e c : Char} (h : (e, c) ∈ letterEscapes) : IsCharText c [byte '\\', byte e]
  | unit {c : Char} {digits : List UInt8} (h : IsUnit digits c.toNat) :
      IsCharText c (byte '\\' :: byte 'u' :: digits)
  | pair {c : Char} {high low : Nat} {digits digits' : List UInt8} (h : IsUnit digits high) (h' : IsUnit digits' low)
      (hhigh : 0xD800 ≤ high ∧ high ≤ 0xDBFF) (hlow : 0xDC00 ≤ low ∧ low ≤ 0xDFFF)
      (hc : c.toNat = (high - 0xD800) * 0x400 + (low - 0xDC00) + 0x10000) :
      IsCharText c (byte '\\' :: byte 'u' :: digits ++ byte '\\' :: byte 'u' :: digits')

/-- The texts of characters inside a string. -/
inductive IsCharsText : List Char → List UInt8 → Prop where
  | nil : IsCharsText [] []
  | cons {c : Char} {cs : List Char} {t ts : List UInt8} (hc : IsCharText c t) (hcs : IsCharsText cs ts) :
      IsCharsText (c :: cs) (t ++ ts)

/-- The texts of a string: its characters between quotes. -/
def IsStringText (s : String) (t : List UInt8) : Prop :=
  ∃ body, IsCharsText s.toList body ∧ t = byte '"' :: (body ++ [byte '"'])

/-! ## Listings -/

/-- What may follow a piece of a listing: each further piece has a comma in front, and blanks around it. -/
inductive IsMore : List (List UInt8) → List UInt8 → Prop where
  | nil {blanks : List UInt8} (h : IsBlanks blanks) : IsMore [] blanks
  | cons {before after piece rest : List UInt8} {pieces : List (List UInt8)} (hbefore : IsBlanks before)
      (hafter : IsBlanks after) (hrest : IsMore pieces rest) :
      IsMore (piece :: pieces) (before ++ byte ',' :: (after ++ (piece ++ rest)))

/-- Pieces with commas between them and blanks wherever one likes. -/
inductive IsListing : List (List UInt8) → List UInt8 → Prop where
  | nil {blanks : List UInt8} (h : IsBlanks blanks) : IsListing [] blanks
  | cons {blanks piece rest : List UInt8} {pieces : List (List UInt8)} (hblanks : IsBlanks blanks)
      (hrest : IsMore pieces rest) : IsListing (piece :: pieces) (blanks ++ (piece ++ rest))

/-! ## Values -/

/-- A member of an object with its texts. -/
structure WrittenMember where
  key : String
  keyText : List UInt8
  beforeColon : List UInt8
  afterColon : List UInt8
  value : Json
  text : List UInt8

namespace WrittenMember

/-- The key and the value. -/
def entry (m : WrittenMember) : String × Json := (m.key, m.value)

def bytes (m : WrittenMember) : List UInt8 :=
  m.keyText ++ (m.beforeColon ++ byte ':' :: (m.afterColon ++ m.text))

/-- All texts but that of the value are such texts. -/
structure IsWellFormed (m : WrittenMember) : Prop where
  key : IsStringText m.key m.keyText
  beforeColon : IsBlanks m.beforeColon
  afterColon : IsBlanks m.afterColon

end WrittenMember

/-- The texts of a value, an integer of which fits 64 bits, signed if it is negative. The keys of an object are
different. -/
inductive IsText : Json → List UInt8 → Prop where
  | null : IsText .null (bytesOf "null")
  | bool (b : Bool) : IsText (.bool b) (bytesOf (toString b))
  | int {i : Int} (hlow : -2 ^ 63 ≤ i) (hhigh : i < 2 ^ 64) : IsText (.int i) (bytesOf (toString i))
  | string {s : String} {t : List UInt8} (h : IsStringText s t) : IsText (.string s) t
  | array {items : List (Json × List UInt8)} {listing : List UInt8}
      (hitems : ∀ item ∈ items, IsText item.1 item.2) (hlisting : IsListing (items.map (·.2)) listing) :
      IsText (.array (items.map (·.1))) (byte '[' :: (listing ++ [byte ']']))
  | object {members : List WrittenMember} {listing : List UInt8}
      (hvalues : ∀ m ∈ members, IsText m.value m.text) (hmembers : ∀ m ∈ members, m.IsWellFormed)
      (hkeys : (members.map (·.key)).Nodup) (hlisting : IsListing (members.map (·.bytes)) listing) :
      IsText (ofMembers (members.map (·.entry))) (byte '\x7b' :: (listing ++ [byte '\x7d']))

/-- The texts of a document: a value with blanks around it. -/
def IsDocument (doc : Json) (bytes : List UInt8) : Prop :=
  ∃ before text after, IsBlanks before ∧ IsText doc text ∧ IsBlanks after ∧ bytes = before ++ (text ++ after)

/-! ## Nesting -/

mutual

/-- How many arrays and objects stand in one another. -/
def nesting : Json → Nat
  | .null | .bool _ | .number _ | .string _ => 0
  | .array items => itemsNesting items + 1
  | .object members => membersNesting members + 1

def itemsNesting : List Json → Nat
  | [] => 0
  | v :: rest => max v.nesting (itemsNesting rest)

def membersNesting : List (String × Json) → Nat
  | [] => 0
  | (_, v) :: rest => max v.nesting (membersNesting rest)

end

theorem nesting_array_le_iff {items : List Json} {n : Nat} :
    (Json.array items).nesting ≤ n + 1 ↔ ∀ v ∈ items, v.nesting ≤ n := by
  have hall : itemsNesting items ≤ n ↔ ∀ v ∈ items, v.nesting ≤ n := by
    induction items with
    | nil => exact iff_of_true (Nat.zero_le n) nofun
    | cons v rest ih => rw [itemsNesting, max_le_iff, ih, List.forall_mem_cons]
  rw [nesting, Nat.add_le_add_iff_right, hall]

theorem nesting_object_le_iff {members : List (String × Json)} {n : Nat} :
    (Json.object members).nesting ≤ n + 1 ↔ ∀ m ∈ members, m.2.nesting ≤ n := by
  have hall : membersNesting members ≤ n ↔ ∀ m ∈ members, m.2.nesting ≤ n := by
    induction members with
    | nil => exact iff_of_true (Nat.zero_le n) nofun
    | cons m rest ih =>
      obtain ⟨k, v⟩ := m
      rw [membersNesting, max_le_iff, ih, List.forall_mem_cons]
  rw [nesting, Nat.add_le_add_iff_right, hall]

/-- Members of different keys are found. -/
theorem member?_of_mem {members : List (String × Json)} (hnodup : (members.map (·.1)).Nodup) {m : String × Json}
    (hm : m ∈ members) : member? m.1 members = some m.2 := by
  induction members with
  | nil => exact nomatch hm
  | cons first rest ih =>
    obtain ⟨k, v⟩ := first
    obtain ⟨hnew, hrest⟩ := List.nodup_cons.mp hnodup
    rw [member?_cons]
    rcases List.mem_cons.mp hm with rfl | hin
    · rw [if_pos rfl]
    · have hk : k ≠ m.1 := by
        rintro rfl
        exact hnew (List.mem_map.mpr ⟨m, hin, rfl⟩)
      rw [if_neg hk, ih hrest hin]

theorem mem_of_member? {members : List (String × Json)} {key : String} {v : Json}
    (h : member? key members = some v) : (key, v) ∈ members := by
  obtain ⟨m, hm, rfl⟩ := Option.map_eq_some_iff.mp h
  have hkey : m.1 = key := by simpa using List.find?_some hm
  exact hkey ▸ List.mem_of_find?_eq_some hm

/-- The members of a sorted object are as deep as they were. -/
theorem nesting_ofMembers_le_iff {members : List (String × Json)} (hnodup : (members.map (·.1)).Nodup) {n : Nat} :
    (ofMembers members).nesting ≤ n + 1 ↔ ∀ m ∈ members, m.2.nesting ≤ n := by
  rw [ofMembers, nesting_object_le_iff]
  constructor
  · intro h m hm
    have hfound := member?_insertAll hnodup m.1 []
    rw [member?_of_mem hnodup hm] at hfound
    exact h _ (mem_of_member? hfound)
  · intro h m hm
    rcases mem_of_mem_insertAll hm with hm | hm
    · exact h m hm
    · cases hm

end Json
end MessageRouter
