import MessageRouter.Json.Printer
import MessageRouter.Proofs.Json.Reading
/-!
# `Proofs.Json.Printing` — what is printed is a text of its value

* `Json.IsPrintable`: values without doubles whose objects are sorted.
* `Json.isText_compact`: what is printed of such a value is a text of it.
* `Json.read_compact`: it is read back, if it is not nested too deep.
-/
namespace MessageRouter
namespace Json

open Reader (byte)

/-! ## Printable values -/

mutual

/-- Integers fit 64 bits, signed if they are negative, and the keys of objects are in order. -/
def IsPrintable : Json → Prop
  | .null | .bool _ | .string _ => True
  | .number (.int i) => -2 ^ 63 ≤ i ∧ i < 2 ^ 64
  | .number (.double _) => False
  | .array items => ItemsArePrintable items
  | .object members => MembersArePrintable members ∧ (members.map (·.1)).Pairwise (· < ·)

def ItemsArePrintable : List Json → Prop
  | [] => True
  | v :: rest => v.IsPrintable ∧ ItemsArePrintable rest

def MembersArePrintable : List (String × Json) → Prop
  | [] => True
  | (_, v) :: rest => v.IsPrintable ∧ MembersArePrintable rest

end

/-- A member whose key comes after those of all others goes to the end. -/
theorem insertMember_append {key : String} {value : Json} {members : List (String × Json)}
    (h : ∀ m ∈ members, m.1 < key) : insertMember key value members = members ++ [(key, value)] := by
  induction members with
  | nil => rfl
  | cons m rest ih =>
    obtain ⟨k, v⟩ := m
    obtain ⟨hk, hrest⟩ := List.forall_mem_cons.mp h
    have hne : key ≠ k := by
      rintro rfl
      exact String.lt_irrefl _ hk
    rw [insertMember, if_neg (String.lt_asymm hk), if_neg hne, ih hrest, List.cons_append]

/-- Sorted members stay as they are. -/
theorem ofMembers_of_pairwise {members : List (String × Json)} (h : (members.map (·.1)).Pairwise (· < ·)) :
    ofMembers members = .object members := by
  have hall (before rest : List (String × Json)) (h : ((before ++ rest).map (·.1)).Pairwise (· < ·)) :
      rest.foldl (fun sorted m => insertMember m.1 m.2 sorted) before = before ++ rest := by
    induction rest generalizing before with
    | nil => exact (List.append_nil before).symm
    | cons m rest ih =>
      have hlast : ∀ m' ∈ before, m'.1 < m.1 := by
        intro m' hm'
        rw [List.map_append, List.pairwise_append] at h
        exact h.2.2 _ (List.mem_map_of_mem hm') _ (by simp)
      rw [List.foldl_cons, insertMember_append hlast]
      have hnext := ih (before ++ [m]) (by simpa using h)
      simpa using hnext
  exact congrArg Json.object (hall [] members h)

/-! ## Strings -/

theorem leftpad_toDigits : ∀ n < 0x20,
    (Nat.toDigits 16 n).leftpad 4 '0' = ['0', '0', (n / 16).digitChar, (n % 16).digitChar] := by
  decide

/-- The characters that are printed with a letter. -/
def letterEscaped : List Char := ['"', '\\', '\n', '\r', '\t', '\x08', '\x0c']

theorem escape_of_mem {c : Char} (h : c ∈ letterEscaped) :
    ∃ e, (e, c) ∈ letterEscapes ∧ e.toNat ≤ 127 ∧ escape c = ['\\', e] := by
  have hall : ∀ c ∈ letterEscaped, ∃ p ∈ letterEscapes, p.1.toNat ≤ 127 ∧ p.2 = c ∧ escape c = ['\\', p.1] := by
    decide
  obtain ⟨⟨e, _⟩, hp, he, rfl, hescape⟩ := hall c h
  exact ⟨e, hp, he, hescape⟩

theorem escape_of_notMem {c : Char} (h : c ∉ letterEscaped) :
    escape c = if c.toNat < 0x20 then '\\' :: 'u' :: (Nat.toDigits 16 c.toNat).leftpad 4 '0' else [c] := by
  simp only [letterEscaped, List.mem_cons, List.not_mem_nil, or_false, not_or] at h
  obtain ⟨hquote, hslash, hn, hr, ht, hb, hf⟩ := h
  simp only [escape, hquote, hslash, hn, hr, ht, hb, hf, if_false]

/-- A character is printed as a text of it. -/
theorem isCharText_escape (c : Char) : IsCharText c ((escape c).flatMap String.utf8EncodeChar) := by
  by_cases hmem : c ∈ letterEscaped
  · obtain ⟨e, hletter, he, hescape⟩ := escape_of_mem hmem
    rw [hescape, flatMap_utf8EncodeChar (by simpa using he)]
    exact .letter hletter
  · rw [escape_of_notMem hmem]
    split
    · next hcontrol =>
      -- a control character is printed with its code point
      have hhigh : c.toNat / 16 < 16 := by omega
      have hlow : c.toNat % 16 < 16 := Nat.mod_lt _ (by decide)
      have hunit := IsUnit.mk (Text.isDigit_digitChar (d := 0) (by decide) le_rfl)
        (Text.isDigit_digitChar (d := 0) (by decide) le_rfl) (Text.isDigit_digitChar hhigh le_rfl)
        (Text.isDigit_digitChar hlow le_rfl)
      have hsum : 0 * 4096 + 0 * 256 + c.toNat / 16 * 16 + c.toNat % 16 = c.toNat := by omega
      rw [hsum] at hunit
      rw [leftpad_toDigits _ hcontrol, flatMap_utf8EncodeChar]
      · exact .unit hunit
      · have hd := Text.digitChar_ascii hhigh
        have hd' := Text.digitChar_ascii hlow
        simp [hd, hd']
    · next hcontrol =>
      rw [List.flatMap_singleton]
      refine .plain (Nat.not_lt.mp hcontrol) ?_ ?_
      · rintro rfl
        exact hmem (by decide)
      · rintro rfl
        exact hmem (by decide)

theorem isCharsText_escape (cs : List Char) :
    IsCharsText cs ((cs.flatMap escape).flatMap String.utf8EncodeChar) := by
  induction cs with
  | nil => exact .nil
  | cons c cs ih =>
    rw [List.flatMap_cons, List.flatMap_append]
    exact .cons (isCharText_escape c) ih

/-- A string is printed as a text of it. -/
theorem isStringText_stringText (s : String) : IsStringText s (bytesOf (stringText s)) := by
  refine ⟨_, isCharsText_escape s.toList, ?_⟩
  rw [bytesOf_eq_flatMap, stringText, String.toList_ofList, List.cons_append, List.flatMap_cons, List.flatMap_append]
  rfl

/-! ## Values -/

theorem isBlanks_nil : IsBlanks [] := nofun

/-- What comes after the first of some texts with commas between them. -/
theorem exists_isMore (t : String) (rest : List String) :
    ∃ more, IsMore (rest.map bytesOf) more ∧ bytesOf (String.intercalate "," (t :: rest)) = bytesOf t ++ more := by
  induction rest generalizing t with
  | nil => exact ⟨[], .nil isBlanks_nil, by simp⟩
  | cons u rest ih =>
    obtain ⟨more, hmore, heq⟩ := ih u
    refine ⟨_, .cons isBlanks_nil isBlanks_nil hmore, ?_⟩
    rw [String.intercalate_cons_cons, bytesOf_append, bytesOf_append, heq, List.append_assoc]
    rfl

/-- Texts are printed with commas between them. -/
theorem isListing_intercalate (texts : List String) :
    IsListing (texts.map bytesOf) (bytesOf (String.intercalate "," texts)) := by
  cases texts with
  | nil => exact .nil isBlanks_nil
  | cons t rest =>
    obtain ⟨more, hmore, heq⟩ := exists_isMore t rest
    rw [heq]
    exact .cons isBlanks_nil hmore

theorem isText_array {items : List Json} (h : ∀ v ∈ items, IsText v (bytesOf v.compact)) :
    IsText (.array items) (bytesOf (Json.array items).compact) := by
  have hlisting := isListing_intercalate (items.map compact)
  rw [List.map_map] at hlisting
  have hvalues : (items.map fun v => (v, bytesOf v.compact)).map (·.1) = items := by
    rw [List.map_map]
    exact List.map_id items
  have hbytes : bytesOf (Json.array items).compact =
      byte '[' :: (bytesOf (String.intercalate "," (items.map compact)) ++ [byte ']']) := by
    rw [compact, compactItems_eq_map, bytesOf_append, bytesOf_append]
    rfl
  have htexts : ∀ x ∈ items.map fun v => (v, bytesOf v.compact), IsText x.1 x.2 := List.forall_mem_map.mpr h
  have htext := IsText.array htexts (by rw [List.map_map]; exact hlisting)
  rw [hvalues] at htext
  exact hbytes ▸ htext

/-- A member as it is printed. -/
def printedMember (m : String × Json) : WrittenMember :=
  ⟨m.1, bytesOf (stringText m.1), [], [], m.2, bytesOf m.2.compact⟩

theorem isText_object {members : List (String × Json)} (h : ∀ m ∈ members, IsText m.2 (bytesOf m.2.compact))
    (hsorted : (members.map (·.1)).Pairwise (· < ·)) :
    IsText (.object members) (bytesOf (Json.object members).compact) := by
  have hlisting := isListing_intercalate (members.map fun m => stringText m.1 ++ ":" ++ compact m.2)
  have hpieces : (members.map fun m => stringText m.1 ++ ":" ++ compact m.2).map bytesOf =
      (members.map printedMember).map (·.bytes) := by
    rw [List.map_map, List.map_map]
    refine List.map_congr_left fun m _ => ?_
    show bytesOf (stringText m.1 ++ ":" ++ compact m.2) = _
    rw [bytesOf_append, bytesOf_append, List.append_assoc]
    rfl
  rw [hpieces] at hlisting
  have hentries : (members.map printedMember).map (·.entry) = members := by
    rw [List.map_map]
    exact List.map_id members
  have hbytes : bytesOf (Json.object members).compact = byte '\x7b' ::
      (bytesOf (String.intercalate "," (members.map fun m => stringText m.1 ++ ":" ++ compact m.2)) ++
        [byte '\x7d']) := by
    rw [compact, compactMembers_eq_map, bytesOf_append, bytesOf_append]
    rfl
  -- a listing in strict order names no member twice, so none is lost
  have hkeys : ((members.map printedMember).map (·.key)).Nodup := by
    rw [List.map_map]
    refine hsorted.imp ?_
    rintro k _ hlt rfl
    exact String.lt_irrefl k hlt
  have hwellFormed : ∀ m ∈ members, (printedMember m).IsWellFormed := by
    intro m _
    exact ⟨isStringText_stringText m.1, isBlanks_nil, isBlanks_nil⟩
  have htext := IsText.object (List.forall_mem_map.mpr h) (List.forall_mem_map.mpr hwellFormed) hkeys hlisting
  rw [hentries, ofMembers_of_pairwise hsorted] at htext
  exact hbytes ▸ htext

mutual

/-- What is printed of a printable value is a text of it. -/
theorem isText_compact {v : Json} (h : v.IsPrintable) : IsText v (bytesOf v.compact) := by
  cases v with
  | null => exact .null
  | bool b => exact .bool b
  | string s => exact .string (isStringText_stringText s)
  | number n =>
    cases n with
    | int i => exact .int h.1 h.2
    | double x => exact h.elim
  | array items => exact isText_array (isText_compactItems h)
  | object members => exact isText_object (isText_compactMembers h.1) h.2

theorem isText_compactItems {items : List Json} (h : ItemsArePrintable items) :
    ∀ v ∈ items, IsText v (bytesOf v.compact) := by
  cases items with
  | nil => exact nofun
  | cons v rest =>
    intro v' hv'
    rcases List.mem_cons.mp hv' with heq | hv'
    · exact heq ▸ isText_compact h.1
    · exact isText_compactItems h.2 v' hv'

theorem isText_compactMembers {members : List (String × Json)} (h : MembersArePrintable members) :
    ∀ m ∈ members, IsText m.2 (bytesOf m.2.compact) := by
  cases members with
  | nil => exact nofun
  | cons m rest =>
    obtain ⟨k, v⟩ := m
    intro m' hm'
    rcases List.mem_cons.mp hm' with heq | hm'
    · exact heq ▸ isText_compact h.1
    · exact isText_compactMembers h.2 m' hm'

end

/-- What is printed of a printable document is a text of it. -/
theorem isDocument_compact {v : Json} (h : v.IsPrintable) : v.IsDocument (bytesOf v.compact) :=
  ⟨[], _, [], isBlanks_nil, isText_compact h, isBlanks_nil, (List.append_nil _).symm⟩

/-- A printable value is read back from what is printed of it, unless it is nested too deep. -/
theorem read_compact {v : Json} (h : v.IsPrintable) (hnesting : v.nesting ≤ maxNesting) :
    read (bytesOf v.compact) = .ok v :=
  (read_of_isDocument (isDocument_compact h)).1 hnesting

end Json
end MessageRouter
