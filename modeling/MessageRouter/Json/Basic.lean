import MessageRouter.Int128
/-!
# `Json.Basic` — JSON values

* `Json.Number`: an integer, held exactly, or a double.
* `Json`: a value. The members of an object are pairs in the order in which they are printed.
* `Json.ofMembers`: an object sorted by key, of which the last of several equal keys counts.
* `Json.member?`, `Json.asInt64?` and the like: views.
-/
namespace MessageRouter

/-- A number of a JSON text. -/
inductive Json.Number where
  | int (value : Int)
  | double (value : Float)
  deriving Repr

/-- A JSON value. -/
inductive Json where
  | null
  | bool (value : Bool)
  | number (value : Json.Number)
  | string (value : String)
  | array (items : List Json)
  | object (members : List (String × Json))

namespace Json

/-! ## Building -/

/-- An integer value. -/
def int (i : Int) : Json := .number (.int i)

/-- A natural number. -/
def nat (n : Nat) : Json := int n

/-- A value, or `null` for none. -/
def ofOption (f : α → Json) : Option α → Json
  | none => null
  | some a => f a

/-- The members with `key` set to `value`, in the order of the keys. -/
def insertMember (key : String) (value : Json) :
    List (String × Json) → List (String × Json)
  | [] => [(key, value)]
  | (k, v) :: rest =>
    if key < k then (key, value) :: (k, v) :: rest
    else if key = k then (key, value) :: rest
    else (k, v) :: insertMember key value rest

/-- An object sorted by key; of several members with one key the last counts. -/
def ofMembers (members : List (String × Json)) : Json :=
  object (members.foldl (fun sorted m => insertMember m.1 m.2 sorted) [])

/-! ## Views -/

/-- The value of a key among members. -/
def member? (key : String) (members : List (String × Json)) : Option Json :=
  (members.find? fun m => m.1 == key).map (·.2)

theorem member?_cons (key k : String) (v : Json) (rest : List (String × Json)) :
    member? key ((k, v) :: rest) = if k = key then some v else member? key rest := by
  by_cases h : k = key
  · simp [member?, h]
  · have hb : (k == key) = false := by simpa using h
    simp [member?, hb, h]

/-- Setting a key makes it readable, and the other keys stay what they were. -/
theorem member?_insertMember (key other : String) (value : Json) (members : List (String × Json)) :
    member? other (insertMember key value members) =
      if key = other then some value else member? other members := by
  induction members with
  | nil => rw [insertMember, member?_cons]
  | cons m rest ih =>
    obtain ⟨k, v⟩ := m
    rw [insertMember]
    by_cases hlt : key < k
    · rw [if_pos hlt, member?_cons]
    · rw [if_neg hlt]
      by_cases hk : key = k
      · rw [if_pos hk, member?_cons, member?_cons]
        by_cases ho : key = other
        · simp [ho]
        · have hko : k ≠ other := fun h => ho (hk.trans h)
          simp [ho, hko]
      · rw [if_neg hk, member?_cons, member?_cons, ih]
        by_cases ho : key = other
        · have hko : k ≠ other := fun h => hk (ho.trans h.symm)
          simp [ho, hko]
        · simp [ho]

/-- Setting a key adds no other member. -/
theorem mem_insertMember {key : String} {value : Json} {members : List (String × Json)} {m : String × Json}
    (h : m ∈ insertMember key value members) : m = (key, value) ∨ m ∈ members := by
  induction members with
  | nil => exact .inl (List.mem_singleton.mp h)
  | cons first rest ih =>
    rw [insertMember] at h
    split at h
    · exact List.mem_cons.mp h
    · split at h
      · rcases List.mem_cons.mp h with rfl | h
        · exact .inl rfl
        · exact .inr (List.mem_cons_of_mem _ h)
      · rcases List.mem_cons.mp h with rfl | h
        · exact .inr List.mem_cons_self
        · exact (ih h).imp_right (List.mem_cons_of_mem _)

/-- The members of a sorted object are those that it was made of. -/
theorem mem_of_mem_insertAll {members sorted : List (String × Json)} {m : String × Json}
    (h : m ∈ members.foldl (fun sorted m => insertMember m.1 m.2 sorted) sorted) :
    m ∈ members ∨ m ∈ sorted := by
  induction members generalizing sorted with
  | nil => exact .inr h
  | cons first rest ih =>
    rcases ih h with h | h
    · exact .inl (List.mem_cons_of_mem _ h)
    · rcases mem_insertMember h with rfl | h
      · exact .inl List.mem_cons_self
      · exact .inr h

/-- Members of different keys are found in the sorted object. -/
theorem member?_insertAll {members : List (String × Json)} (hnodup : (members.map (·.1)).Nodup)
    (key : String) (sorted : List (String × Json)) :
    member? key (members.foldl (fun sorted m => insertMember m.1 m.2 sorted) sorted) =
      (member? key members).or (member? key sorted) := by
  induction members generalizing sorted with
  | nil => rfl
  | cons first rest ih =>
    obtain ⟨k, v⟩ := first
    obtain ⟨hnew, hrest⟩ := List.nodup_cons.mp hnodup
    rw [List.foldl_cons, ih hrest, member?_insertMember, member?_cons]
    by_cases hk : k = key
    · -- the key does not come again
      have hnone : member? key rest = none := by
        rw [member?, Option.map_eq_none_iff, List.find?_eq_none]
        intro m hm heq
        exact hnew (List.mem_map.mpr ⟨m, hm, (eq_of_beq heq).trans hk.symm⟩)
      rw [if_pos hk, if_pos hk, hnone, Option.none_or, Option.some_or]
    · rw [if_neg hk, if_neg hk]

/-- An integer of 64 bits. -/
def Number.asInt64? : Number → Option Int64
  | .int i => if -2 ^ 63 ≤ i ∧ i < 2 ^ 63 then some (Int64.ofInt i) else none
  | .double _ => none

end Json
end MessageRouter
