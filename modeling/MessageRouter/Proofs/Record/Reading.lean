import MessageRouter.Proofs.Receiver.Value
import MessageRouter.Proofs.Text.Numeral
import MessageRouter.Record
/-!
# `Proofs.Record.Reading` — the JSON values that are states

* `Value.IsGiven`: the JSON values that may be given for a field, each with the value that it gives.
* `Record.fieldOfJson_eq_ok_iff`: what is read for a field is what is given for it, or zero.
* `Record.IsState`: the JSON values that are states of some fields.
* `Record.ofJson_exact`: exactly these are read, field by field, and it does not matter whether an integer of 64 bits
  is given as a number or as a text.
-/
namespace MessageRouter

/-! ## Values -/

namespace Value

/-- A JSON value that may be given for a field of a type, and the value that it gives. A `bool` is given by a truth
value. The other types hold integers, which are given by numbers of 64 bits or by numerals of 128 bits. -/
inductive IsGiven : FieldType → Json → Value → Prop where
  | bool (b : Bool) : IsGiven .bool (.bool b) (.bool b)
  | number {t : FieldType} {i : Int} {n : Int128} (ht : t ≠ .bool) (hi : -2 ^ 63 ≤ i ∧ i < 2 ^ 63)
    (hn : n.toInt = i) : IsGiven t (.number (.int i)) (.int n)
  | numeral {t : FieldType} {s : String} {n : Int128} (ht : t ≠ .bool)
    (hs : Text.IsNumeral s.toList n.toInt) : IsGiven t (.string s) (.int n)

theorem Kind.ofType_eq_bool_iff {t : FieldType} : Kind.ofType t = .bool ↔ t = .bool := by
  cases t <;> simp [Kind.ofType]

theorem Kind.ofType_eq_int_iff {t : FieldType} : Kind.ofType t = .int ↔ t ≠ .bool := by
  cases t <;> simp [Kind.ofType]

/-- A number of 64 bits and a numeral of it give the same values. -/
theorem isGiven_number_iff {t : FieldType} {i : Int} {s : String} (hs : Text.IsNumeral s.toList i)
    (hi : -2 ^ 63 ≤ i ∧ i < 2 ^ 63) (value : Value) :
    IsGiven t (.number (.int i)) value ↔ IsGiven t (.string s) value := by
  constructor
  · intro h
    cases h with
    | number ht _ hn => exact .numeral ht (hn ▸ hs)
  · intro h
    cases h with
    | numeral ht hs' => exact .number ht hi (hs'.eq_of_isNumeral hs)

end Value

namespace Record

/-- The numerals of the integers of 128 bits are read. -/
theorem readInt128_eq_ok_iff {s : String} {n : Int128} :
    readInt128 s = .ok n ↔ Text.IsNumeral s.toList n.toInt := by
  obtain ⟨hlow, hhigh⟩ := n.inRange_toInt
  unfold readInt128
  rw [Fallible.bind_eq_ok_iff]
  constructor
  · rintro ⟨i, hi, hn⟩
    obtain ⟨hnumeral, hbelow, habove⟩ := Text.readInt_eq_ok_iff.mp hi
    obtain rfl := Except.ok.inj hn
    rwa [Int128.toInt_ofInt ⟨by omega, by omega⟩]
  · intro h
    refine ⟨n.toInt, Text.readInt_eq_ok_iff.mpr ⟨h, by omega, by omega⟩, ?_⟩
    exact congrArg Except.ok (Int128.toInt_inj (Int128.toInt_ofInt ⟨hlow, hhigh⟩))

/-- What is given for a field is read as the value that it gives. -/
theorem fieldOfJson_some_eq_ok_iff {f : Field} {v : Json} {value : Value} :
    fieldOfJson f (some v) = .ok value ↔ Value.IsGiven f.type v value := by
  obtain ⟨name, t⟩ := f
  unfold fieldOfJson
  dsimp only
  constructor
  · intro h
    split at h
    · next b hkind =>
      obtain rfl := Except.ok.inj h
      obtain rfl := Value.Kind.ofType_eq_bool_iff.mp hkind
      exact .bool b
    · next n hkind =>
      have ht := Value.Kind.ofType_eq_int_iff.mp hkind
      split at h
      · next i hi =>
        obtain rfl := Except.ok.inj h
        cases n with
        -- a number with a point or an exponent is never read, whatever it counts
        | double x => cases hi
        | int j =>
          rw [Json.Number.asInt64?, Option.ite_none_right_eq_some] at hi
          obtain ⟨hj, hi⟩ := hi
          obtain rfl := Option.some.inj hi
          refine .number ht hj ?_
          rw [Int128.toInt_ofInt64, Int64.toInt_ofInt_of_le hj.1 hj.2]
      · cases h
    · next s hkind =>
      obtain ⟨n, hn, rfl⟩ := Fallible.map_eq_ok_iff.mp h
      have hread := readInt128_eq_ok_iff.mp (Fallible.mapError_eq_ok_iff.mp hn)
      exact .numeral (Value.Kind.ofType_eq_int_iff.mp hkind) hread
    · cases h
  · intro h
    cases h with
    | bool b => rfl
    | @number _ i n ht hi hn =>
      have hint : (Int64.ofInt i).toInt = i := Int64.toInt_ofInt_of_le hi.1 hi.2
      have hvalue : Int128.ofInt64 (Int64.ofInt i) = n := by
        apply Int128.toInt_inj
        rw [Int128.toInt_ofInt64, hint, hn]
      simp only [Value.Kind.ofType_eq_int_iff.mpr ht, Json.Number.asInt64?, if_pos hi, hvalue]
    | @numeral _ s n ht hs =>
      simp only [Value.Kind.ofType_eq_int_iff.mpr ht, readInt128_eq_ok_iff.mpr hs]
      rfl

/-! ## States -/

/-- What a state gives for a name. -/
def given? (name : String) : Json → Option Json
  | .object members => Json.member? name members
  | _ => none

/-- A JSON value that says nothing but the values of some fields: `null`, or an object with no other names. -/
def NamesFields (fields : List Field) : Json → Prop
  | .null => True
  | .object members => ∀ m ∈ members, ∃ f ∈ fields, f.name = m.1
  | _ => False

/-- A JSON value that is a state of some fields: whatever it gives for one of them is a value of its type. -/
structure IsState (fields : List Field) (v : Json) : Prop where
  names : NamesFields fields v
  values : ∀ f ∈ fields, ∀ x, given? f.name v = some x → ∃ value, Value.IsGiven f.type x value

/-- The value that a field has in a state: what is given for it, or zero. -/
def Has (v : Json) (f : Field) (value : Value) : Prop :=
  match given? f.name v with
  | none => value = .zeroOf f.type
  | some x => Value.IsGiven f.type x value

variable {fields : List Field} {r : Record}

theorem fieldOfJson_eq_ok_iff {v : Json} {f : Field} {value : Value} :
    fieldOfJson f (given? f.name v) = .ok value ↔ Has v f value := by
  unfold Has
  cases given? f.name v with
  | none => exact ⟨fun h => (Except.ok.inj h).symm, fun h => congrArg Except.ok h.symm⟩
  | some x => exact fieldOfJson_some_eq_ok_iff

/-- Entries are zero field by field exactly if they are those of the zeroed state. -/
theorem zeroed_eq_iff :
    zeroed fields = r ↔
      List.Forall₂ (fun f e => e.1 = f.name ∧ e.2 = Value.zeroOf f.type) fields r.entries := by
  obtain ⟨entries⟩ := r
  constructor
  · intro h
    obtain rfl := Record.mk.inj h
    rw [List.forall₂_map_right_iff, List.forall₂_same]
    exact fun _ _ => ⟨rfl, rfl⟩
  · intro h
    have hentries : fields.map (fun f => (f.name, Value.zeroOf f.type)) = entries.map id :=
      Fallible.map_eq_map_of_forall₂ (h.imp fun f e he => Prod.ext he.1.symm he.2.symm)
    rw [List.map_id] at hentries
    exact congrArg Record.mk hentries

/-- A state is read field by field. -/
theorem ofJson_eq_ok_iff {v : Json} :
    ofJson fields v = .ok r ↔
      NamesFields fields v ∧
        List.Forall₂ (fun f e => e.1 = f.name ∧ Has v f e.2) fields r.entries := by
  cases v with
  | null =>
    rw [ofJson, Except.ok.injEq, zeroed_eq_iff]
    exact ⟨fun h => ⟨trivial, h⟩, fun h => h.2⟩
  | object members =>
    rw [ofJson]
    constructor
    · intro h
      -- a member that is no field is refused before any field is read
      split at h
      · cases h
      · next hnone =>
        obtain ⟨entries, hentries, h⟩ := Fallible.bind_eq_ok_iff.mp h
        obtain rfl := Except.ok.inj h
        refine ⟨fun m hm => ?_, (Fallible.mapM_eq_ok_iff.mp hentries).imp fun f e he => ?_⟩
        · simpa using List.find?_eq_none.mp hnone m hm
        · obtain ⟨value, hvalue, he⟩ := Fallible.bind_eq_ok_iff.mp he
          obtain rfl := Except.ok.inj he
          exact ⟨rfl, fieldOfJson_eq_ok_iff.mp hvalue⟩
    · rintro ⟨hnames, hentries⟩
      have hnone : members.find? (fun m => !fields.any (·.name == m.1)) = none := by
        rw [List.find?_eq_none]
        intro m hm
        simpa using hnames m hm
      simp only [hnone]
      refine Fallible.bind_eq_ok_iff.mpr ⟨r.entries, Fallible.mapM_eq_ok_iff.mpr ?_, rfl⟩
      refine hentries.imp fun f e he => Fallible.bind_eq_ok_iff.mpr ⟨e.2, ?_, ?_⟩
      · exact fieldOfJson_eq_ok_iff.mpr he.2
      · exact congrArg Except.ok (Prod.ext he.1.symm rfl)
  | bool | number | string | array => exact ⟨nofun, fun h => h.1.elim⟩

/-- There are entries for some fields exactly if there is a value for each of them. -/
theorem exists_entries_iff {P : Field → Value → Prop} :
    (∃ r : Record, List.Forall₂ (fun f e => e.1 = f.name ∧ P f e.2) fields r.entries) ↔
      ∀ f ∈ fields, ∃ value, P f value := by
  induction fields with
  | nil => exact ⟨fun _ => nofun, fun _ => ⟨.empty, .nil⟩⟩
  | cons f rest ih =>
    rw [List.forall_mem_cons, ← ih]
    constructor
    · rintro ⟨r, h⟩
      obtain ⟨e, entries, ⟨-, he⟩, hrest, -⟩ := List.forall₂_cons_left_iff.mp h
      exact ⟨⟨e.2, he⟩, ⟨entries⟩, hrest⟩
    · rintro ⟨⟨value, hvalue⟩, r, hrest⟩
      exact ⟨⟨(f.name, value) :: r.entries⟩, .cons ⟨rfl, hvalue⟩ hrest⟩

/-- A field has a value exactly if what is given for it, if anything is, gives one. -/
theorem exists_has_iff {v : Json} {f : Field} :
    (∃ value, Has v f value) ↔
      ∀ x, given? f.name v = some x → ∃ value, Value.IsGiven f.type x value := by
  unfold Has
  cases given? f.name v with
  | none => exact ⟨fun _ => nofun, fun _ => ⟨_, rfl⟩⟩
  | some x => exact ⟨fun h _ hx => Option.some.inj hx ▸ h, fun h => h x rfl⟩

/-- A JSON value is read exactly if it is a state. -/
theorem exists_ofJson_iff {v : Json} : (∃ r, ofJson fields v = .ok r) ↔ IsState fields v := by
  simp only [ofJson_eq_ok_iff, exists_and_left, exists_entries_iff, exists_has_iff]
  exact ⟨fun h => ⟨h.1, h.2⟩, fun h => ⟨h.1, h.2⟩⟩

/-! ## Numbers and texts -/

section Spelling

variable {before after : List (String × Json)} {key : String} {x y : Json}

theorem namesFields_congr :
    NamesFields fields (.object (before ++ (key, x) :: after)) ↔
      NamesFields fields (.object (before ++ (key, y) :: after)) := by
  simp only [NamesFields, List.forall_mem_append, List.forall_mem_cons]

/-- Another spelling of what is given for a name changes the value of no field. -/
theorem has_congr (h : ∀ t value, Value.IsGiven t x value ↔ Value.IsGiven t y value) (f : Field)
    (value : Value) :
    Has (.object (before ++ (key, x) :: after)) f value ↔
      Has (.object (before ++ (key, y) :: after)) f value := by
  have hgiven (z : Json) : given? f.name (.object (before ++ (key, z) :: after)) =
      (Json.member? f.name before).or (if key = f.name then some z else Json.member? f.name after) := by
    rw [given?, Json.member?, List.find?_append, Option.map_or]
    exact congrArg _ (Json.member?_cons f.name key z after)
  unfold Has
  rw [hgiven x, hgiven y]
  cases Json.member? f.name before with
  | some z => exact Iff.rfl
  | none =>
    rw [Option.none_or, Option.none_or]
    by_cases hkey : key = f.name
    · rw [if_pos hkey, if_pos hkey]
      exact h f.type value
    · rw [if_neg hkey, if_neg hkey]

/-- Another spelling of what is given for a name changes no state. -/
theorem ofJson_congr (h : ∀ t value, Value.IsGiven t x value ↔ Value.IsGiven t y value) :
    ofJson fields (.object (before ++ (key, x) :: after)) = .ok r ↔
      ofJson fields (.object (before ++ (key, y) :: after)) = .ok r := by
  simp only [ofJson_eq_ok_iff, namesFields_congr (x := x) (y := y), has_congr h]

end Spelling

/-- Exactly these JSON values are read as states of some fields: `null`, and the objects of fields' names that give truth
values for the fields of type `bool`, and for the others numbers that are signed integers of 64 bits or numerals of
signed integers of 128 bits. The state has one entry for each field, in order, with the value that is given for it, or
zero. It is the same state if a number is given as a numeral. An integer of more than 64 bits must be given as a
numeral, also if it is a number of JSON that is held exactly. -/
theorem ofJson_exact (fields : List Field) (v : Json) :
    ((∃ r, ofJson fields v = .ok r) ↔ IsState fields v) ∧
      (∀ r, ofJson fields v = .ok r →
        List.Forall₂ (fun f e => e.1 = f.name ∧ Has v f e.2) fields r.entries) ∧
      ∀ before after key i s, Text.IsNumeral s.toList i → -2 ^ 63 ≤ i ∧ i < 2 ^ 63 →
        ∀ r, ofJson fields (.object (before ++ (key, .number (.int i)) :: after)) = .ok r ↔
          ofJson fields (.object (before ++ (key, .string s) :: after)) = .ok r := by
  refine ⟨exists_ofJson_iff, fun r h => (ofJson_eq_ok_iff.mp h).2, ?_⟩
  intro before after key i s hs hi r
  exact ofJson_congr fun t value => Value.isGiven_number_iff hs hi value

/-- A total that an unsigned field of 64 bits can hold is refused as a number and read as a numeral. -/
example :
    ofJson [⟨"total", .uint 64⟩] (.object [("total", .number (.int (2 ^ 63)))]) =
        .error (.notInteger "total" (.int (2 ^ 63))) ∧
      ofJson [⟨"total", .uint 64⟩] (.object [("total", .string "9223372036854775808")]) =
        .ok ⟨[("total", .int (.ofNat (2 ^ 63)))]⟩ :=
  ⟨rfl, rfl⟩

end Record
end MessageRouter
