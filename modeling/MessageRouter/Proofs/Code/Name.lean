import MessageRouter.Contract.Plan
import MessageRouter.Proofs.Code.Role
import MessageRouter.Proofs.Code.Word
import MessageRouter.Proofs.Document.WellFormed
/-!
# `Proofs.Code.Name` — the names in generated text

* `newline_notMem_quoted`, `newline_notMem_of_isValid`: texts that stay on one line.
* `isName_var`, `isName_field`, `isName_reader`, `isName_router`: names made from allowed names.
* `Contract.isName_functionName`: the function of a receiver has such a name.
* `Func.Name.var_inj`, `Func.Name.field_inj`, `Func.Name.var_ne_field`: no two variables share a name. The quote
  between a binding and a field stands in no allowed name.
* `Func.Name.readerName_inj`: no two readers share a name.
-/
namespace MessageRouter

open Code (IsName isWordPart)
open Identifier (IsValid)

/-! ## Allowed names -/

/-- What may stand in a name is neither a blank nor a mark. -/
theorem isWordPart_of_isPart {c : Char} (h : Identifier.isPart c = true) : isWordPart c = true := by
  have hrange : (97 ≤ c.toNat ∧ c.toNat ≤ 122 ∨ 65 ≤ c.toNat ∧ c.toNat ≤ 90) ∨
      48 ≤ c.toNat ∧ c.toNat ≤ 57 ∨ c = '_' := by
    have hpart := h
    simp only [Identifier.isPart, Identifier.isLetter, Bool.or_eq_true, Bool.and_eq_true,
      decide_eq_true_eq, beq_iff_eq, Char.le_def] at hpart
    rcases hpart with (((⟨h₁, h₂⟩ | ⟨h₁, h₂⟩) | ⟨h₁, h₂⟩) | h₁)
    · exact .inl (.inl ⟨h₁, h₂⟩)
    · exact .inl (.inr ⟨h₁, h₂⟩)
    · exact .inr (.inl ⟨h₁, h₂⟩)
    · exact .inr (.inr h₁)
  have hmark : Code.isMark c = false := by
    rw [Bool.eq_false_iff]
    intro hmark
    have hmem := List.contains_iff_mem.mp hmark
    simp only [List.mem_cons, List.not_mem_nil, or_false] at hmem
    rcases hmem with rfl | rfl | rfl | rfl | rfl | rfl | rfl | rfl <;> exact nomatch h
  have hblank : Text.isBlank c = false := by
    rcases hrange with hrange | hrange | rfl
    · simp only [Text.isBlank, Bool.or_eq_false_iff, Bool.and_eq_false_iff, decide_eq_false_iff_not,
        beq_eq_false_iff_ne]
      omega
    · simp only [Text.isBlank, Bool.or_eq_false_iff, Bool.and_eq_false_iff, decide_eq_false_iff_not,
        beq_eq_false_iff_ne]
      omega
    · decide
  rw [isWordPart, hblank, hmark]
  rfl

section Valid

variable {role : Identifier.Role} {name : String}

theorem isWordPart_of_mem_valid (h : IsValid role name) {c : Char} (hc : c ∈ name.toList) :
    isWordPart c = true :=
  isWordPart_of_isPart (h.2 c hc)

/-- No quote stands in an allowed name. -/
theorem quote_notMem_of_isValid (h : IsValid role name) : '\'' ∉ name.toList := fun hmem =>
  absurd (h.2 _ hmem) (by decide)

theorem newline_notMem_of_isValid (h : IsValid role name) : '\n' ∉ name.toList := fun hmem =>
  absurd (h.2 _ hmem) (by decide)

end Valid

/-! ## Lines -/

/-- A text between quotes stays on one line. -/
theorem Text.newline_notMem_quoted (s : String) : '\n' ∉ (quoted s).toList := by
  have hescape (c : Char) : '\n' ∉ escape '"' c := by
    unfold escape
    split
    · decide
    split
    · decide
    split
    · decide
    split
    · decide
    split
    · decide
    split
    · decide
    next hn _ _ _ =>
    split
    · exact fun h => hn (List.mem_singleton.mp h).symm
    · intro h
      have hmem : '\n' ∈ Nat.toDigits 16 c.toNat := by simpa [escapeCodePoint] using h
      exact absurd (Code.digit_of_mem_toDigits (by omega) (by omega) hmem).1 (by decide)
  rw [quoted, String.toList_ofList]
  simp [hescape]

theorem newline_notMem_append {x y : String} (hx : '\n' ∉ x.toList) (hy : '\n' ∉ y.toList) :
    '\n' ∉ (x ++ y).toList := by
  rw [String.toList_append, List.mem_append, not_or]
  exact ⟨hx, hy⟩

namespace Func.Name

/-! ## Generated names -/

theorem isName_dollar {x : String} (h : ∀ c ∈ x.toList, isWordPart c = true) : IsName ("$" ++ x) :=
  IsName.dollar.of_append h

variable {role role' : Identifier.Role}

theorem isName_var {name : String} (h : IsValid role name) : IsName (var name) :=
  isName_dollar fun _ hc => isWordPart_of_mem_valid h hc

theorem isName_field {binding name : String} (hbinding : IsValid role binding)
    (hname : IsValid role' name) : IsName (field binding name) := by
  refine IsName.of_append (IsName.of_append (isName_var hbinding) ?_) ?_
  · decide
  · exact fun _ hc => isWordPart_of_mem_valid hname hc

/-- The router of a contract. -/
theorem isName_router {contract : String} (h : IsValid role contract) (d : Direction) :
    IsName (router contract d) := by
  refine IsName.of_append (IsName.of_append (isName_var h) (by decide)) ?_
  cases d <;> decide

/-- A function of a contract for messages of a direction. -/
theorem isName_receive {contract : String} (h : IsValid role contract) (d : Direction) {what : String}
    (hwhat : ∀ c ∈ what.toList, isWordPart c = true) : IsName (receive contract d what) := by
  refine IsName.of_append (IsName.of_append (IsName.of_append (IsName.of_append (isName_var h) ?_) ?_)
    ?_) hwhat
  · decide
  · cases d <;> decide
  · decide

theorem isName_receiveBounced {contract message : String} (h : IsValid role contract)
    (hmessage : IsValid role' message) : IsName (receiveBounced contract message) :=
  IsName.of_append (IsName.of_append (isName_var h) (by decide))
    fun _ hc => isWordPart_of_mem_valid hmessage hc

theorem isName_receiveAnyBounced {contract : String} (h : IsValid role contract) :
    IsName (receiveAnyBounced contract) :=
  IsName.of_append (isName_var h) (by decide)

/-- The reader of a message. -/
theorem isName_readerName {message : String} (h : IsValid role message) (isPartial : Bool) :
    IsName (Plan.readerName message isPartial) := by
  cases isPartial with
  | false => exact IsName.of_append (isName_var h) (by decide)
  | true => exact IsName.of_append (isName_var h) (by decide)

/-! ## Different names -/

theorem toList_var (name : String) : (var name).toList = '$' :: name.toList := by simp [var]

theorem toList_field (binding name : String) :
    (field binding name).toList = '$' :: (binding.toList ++ '\'' :: name.toList) := by
  simp [field]

theorem var_inj {a b : String} (h : var a = var b) : a = b := by
  have hlist := congrArg String.toList h
  rw [toList_var, toList_var] at hlist
  exact String.toList_inj.mp (List.cons.inj hlist).2

/-- The parts around the first of a character. -/
theorem eq_of_append_cons {mark : Char} {a b x y : List Char} (ha : mark ∉ a) (hb : mark ∉ b)
    (h : a ++ mark :: x = b ++ mark :: y) : a = b ∧ x = y := by
  induction a generalizing b with
  | nil =>
    cases b with
    | nil => exact ⟨rfl, (List.cons.inj h).2⟩
    | cons c b => exact absurd (List.cons.inj h).1 fun hc => hb (hc ▸ List.mem_cons_self)
  | cons c a ih =>
    cases b with
    | nil => exact absurd (List.cons.inj h).1 fun hc => ha (hc ▸ List.mem_cons_self)
    | cons d b =>
      obtain ⟨rfl, htail⟩ := List.cons.inj h
      obtain ⟨rfl, hxy⟩ := ih (fun hm => ha (List.mem_cons_of_mem _ hm))
        (fun hm => hb (List.mem_cons_of_mem _ hm)) htail
      exact ⟨rfl, hxy⟩

/-- An unpacked field has the name of its binding and its own. -/
theorem field_inj {binding binding' a b : String} (hbinding : IsValid role binding)
    (hbinding' : IsValid role' binding') (h : field binding a = field binding' b) :
    binding = binding' ∧ a = b := by
  have hlist := congrArg String.toList h
  rw [toList_field, toList_field] at hlist
  obtain ⟨hleft, hright⟩ := eq_of_append_cons (quote_notMem_of_isValid hbinding)
    (quote_notMem_of_isValid hbinding') (List.cons.inj hlist).2
  exact ⟨String.toList_inj.mp hleft, String.toList_inj.mp hright⟩

theorem field_right_inj {binding a b : String} (h : field binding a = field binding b) : a = b := by
  have hlist := congrArg String.toList h
  rw [toList_field, toList_field] at hlist
  have htail := List.append_cancel_left (List.cons.inj hlist).2
  exact String.toList_inj.mp (List.cons.inj htail).2

/-- A local is no unpacked field. -/
theorem var_ne_field {name : String} (h : IsValid role name) (binding field' : String) :
    var name ≠ field binding field' := by
  intro heq
  have hlist := congrArg String.toList heq
  rw [toList_var, toList_field] at hlist
  have hname := (List.cons.inj hlist).2
  refine quote_notMem_of_isValid h ?_
  rw [hname]
  simp

/-- The end of a reader's name. -/
def readerSuffix (isPartial : Bool) : String := if isPartial then "_load_bounced" else "_load"

theorem toList_readerName (message : String) (isPartial : Bool) :
    (Plan.readerName message isPartial).toList =
      '$' :: (message.toList ++ '$' :: (readerSuffix isPartial).toList) := by
  cases isPartial <;> simp [Plan.readerName, reader, bouncedReader, readerSuffix]

/-- No dollar sign stands in an allowed name. -/
theorem dollar_notMem_of_isValid {name : String} (h : IsValid role name) : '$' ∉ name.toList :=
  fun hmem => absurd (h.2 _ hmem) (by decide)

/-- A reader has the name of its message and tells what it reads of it. -/
theorem readerName_inj {a b : String} {p q : Bool} (ha : IsValid role a)
    (h : Plan.readerName a p = Plan.readerName b q) : a = b ∧ p = q := by
  have hlist := congrArg String.toList h
  rw [toList_readerName, toList_readerName] at hlist
  have hsuffix : '$' ∉ (readerSuffix p).toList := by cases p <;> decide
  obtain ⟨hname, -, hsame⟩ := (List.append_cons_inj_of_notMem (dollar_notMem_of_isValid ha)
    hsuffix).mp (List.cons.inj hlist).2
  refine ⟨String.toList_inj.mp hname, ?_⟩
  cases p <;> cases q
  · rfl
  · exact absurd hsame (by decide)
  · exact absurd hsame (by decide)
  · rfl

end Func.Name

/-! ## Functions of receivers -/

namespace Registry

variable {registry : Registry} {name : String} {l : Layout}

/-- A message with a layout is registered under its name. -/
theorem mem_of_layout (h : registry.layout name = .ok l) :
    l.message ∈ registry.messages ∧ l.message.name = name := by
  have hfind := (layout_eq_ok_iff.mp h).1
  exact ⟨List.mem_of_find?_eq_some hfind, by simpa using List.find?_some hfind⟩

theorem isValid_of_layout (hregistry : registry.WellFormed) (h : registry.layout name = .ok l) :
    IsValid .typeName name := by
  obtain ⟨hmem, rfl⟩ := mem_of_layout h
  exact hregistry.valid _ hmem

end Registry

namespace Contract

variable {c : Contract} {registry : Registry} {r : Receiver} {function : String}

/-- The tag of a comment is hexadecimal. -/
theorem exists_digit_of_mem_tag {text hash : String} {loc : Option Span}
    (h : Comment.tag text loc = .ok hash) {ch : Char} (hc : ch ∈ hash.toList) :
    ∃ d < 16, ch = d.digitChar := by
  obtain ⟨cell, -, rfl⟩ := exists_cell_of_tag h
  exact Code.exists_digit_of_mem_hexBytes hc

theorem isWordPart_of_mem_tag {text hash : String} {loc : Option Span}
    (h : Comment.tag text loc = .ok hash) {ch : Char} (hc : ch ∈ hash.toList) :
    isWordPart ch = true := by
  obtain ⟨d, hd, rfl⟩ := exists_digit_of_mem_tag h hc
  exact (Code.digitChar_spec hd).1

/-- The function of a receiver, if its message is an allowed name. -/
theorem isName_functionName (hname : IsValid .typeName c.name)
    (hmessage : ∀ message, r.selector.message? = some message → IsValid .typeName message)
    (h : c.functionName r = .ok function) : IsName function := by
  obtain ⟨role, hrole, rfl⟩ := exists_role_of_functionName h
  -- names of messages and tags hold only what may stand in a name, and the rest is fixed
  cases hrole with
  | message hs =>
    exact Func.Name.isName_receive hname _ <| Code.isWordPart_append (by decide)
      fun _ hc => isWordPart_of_mem_valid (hmessage _ (by rw [hs]; rfl)) hc
  | comment hs htag =>
    exact Func.Name.isName_receive hname _ <| Code.isWordPart_append (by decide)
      fun _ hc => isWordPart_of_mem_tag htag hc
  | empty | anyComment | any => exact Func.Name.isName_receive hname _ (by decide)
  | bounced hs => exact Func.Name.isName_receiveBounced hname (hmessage _ (by rw [hs]; rfl))
  | anyBounced => exact Func.Name.isName_receiveAnyBounced hname

end Contract
end MessageRouter
