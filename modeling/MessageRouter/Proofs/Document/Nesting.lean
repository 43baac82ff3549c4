import Mathlib.Data.List.Nodup
import MessageRouter.Proofs.Body.Lists
import MessageRouter.Proofs.Document.Reading
import MessageRouter.Proofs.Json.Grammar
/-!
# `Proofs.Document.Nesting` — how deep the document of a program is nested

* `Document.HasMembers`, `Document.Each`, `Document.UsesOwnKeys`: documents all of whose keys are read.
* `Document.HasMembers.nesting_le_iff`: such an object is as deep as the values of its keys.
* `Document.nesting_of_sexpr`: a body is as deep as the lists of its statements.
* `Document.nesting_of_readMessage`, `Document.nesting_of_readReceiver`, `Document.nesting_of_readContract`: how deep
  the parts are.
* `Program.nesting_of_ofJson`: the document of a program is five levels deeper than the bodies of the program.
-/
namespace MessageRouter

namespace Document

/-! ## Documents of known keys -/

/-- An object with members of these keys only, each of which comes once and has a value of its kind. -/
def HasMembers (parts : List (String × (Json → Prop))) (v : Json) : Prop :=
  ∀ ms, v = .object ms → (ms.map (·.1)).Nodup ∧ ∀ m ∈ ms, ∃ part ∈ parts, part.1 = m.1 ∧ part.2 m.2

/-- An array of values of a kind. -/
def Each (kind : Json → Prop) (v : Json) : Prop := ∀ items, v = .array items → ∀ item ∈ items, kind item

/-- A value that has no keys that are read. -/
def Plain (_ : Json) : Prop := True

/-- The keys that are read of a selector of a kind. -/
def SelectorKind.keys : SelectorKind → List String
  | message _ => ["kind", "message", "binding"]
  | empty _ => ["kind"]
  | comment _ => ["kind", "text"]
  | anyComment _ | any _ | anyBounced => ["kind", "binding"]
  | bounced => ["kind", "message", "binding", "partial"]

def OwnField : Json → Prop := HasMembers [("name", Plain), ("ty", Plain)]

def OwnMessage : Json → Prop := HasMembers [("name", Plain), ("header", Plain), ("fields", Each OwnField)]

def OwnPosition : Json → Prop := HasMembers [("line", Plain), ("col", Plain)]

/-- A span is an object, or an array of its positions and its file. -/
def OwnSpan (v : Json) : Prop :=
  HasMembers [("start", OwnPosition), ("end", OwnPosition), ("file", Plain)] v ∧ Each OwnPosition v

/-- Which keys of a selector are read depends on its kind. -/
def OwnSelector (v : Json) : Prop :=
  ∀ ms name kind, v = .object ms → Json.member? "kind" ms = some (.string name) →
    SelectorKind.ofName? name = some kind → HasMembers (kind.keys.map (·, Plain)) v

def OwnReceiver : Json → Prop := HasMembers [("loc", OwnSpan), ("selector", OwnSelector), ("body", Plain)]

def OwnContract : Json → Prop :=
  HasMembers [("name", Plain), ("fields", Each OwnField), ("receivers", Each OwnReceiver)]

/-- A document all of whose keys are read. -/
def UsesOwnKeys : Json → Prop :=
  HasMembers [("schema_version", Plain), ("messages", Each OwnMessage), ("contracts", Each OwnContract)]

theorem each_iff {kind : Json → Prop} {items : List Json} :
    Each kind (.array items) ↔ ∀ item ∈ items, kind item := by
  constructor
  · exact fun h => h items rfl
  · rintro h _ ⟨⟩
    exact h

section HasMembers

variable {parts : List (String × (Json → Prop))} {ms : Members} {key : String} {kind : Json → Prop}

theorem hasMembers_iff : HasMembers parts (.object ms) ↔
    (ms.map (·.1)).Nodup ∧ ∀ m ∈ ms, ∃ part ∈ parts, part.1 = m.1 ∧ part.2 m.2 := by
  constructor
  · exact fun h => h ms rfl
  · rintro h _ ⟨⟩
    exact h

/-- A member is of the kind that goes with its key. -/
theorem HasMembers.member (h : HasMembers parts (.object ms)) (hparts : (parts.map (·.1)).Nodup)
    (hkind : (key, kind) ∈ parts) : ∀ v, Json.member? key ms = some v → kind v := by
  intro v hv
  obtain ⟨-, hall⟩ := h ms rfl
  obtain ⟨⟨key', kind'⟩, hpart, hkey, hvalue⟩ := hall _ (Json.mem_of_member? hv)
  obtain rfl : kind' = kind := by
    have hsame := List.inj_on_of_nodup_map hparts hpart hkind hkey
    exact congrArg Prod.snd hsame
  exact hvalue

/-- Such an object is as deep as the values of its keys. -/
theorem HasMembers.nesting_le_iff (h : HasMembers parts (.object ms)) {n : Nat} :
    (Json.object ms).nesting ≤ n + 1 ↔ ∀ part ∈ parts, ∀ v, Json.member? part.1 ms = some v → v.nesting ≤ n := by
  obtain ⟨hnodup, hall⟩ := h ms rfl
  rw [Json.nesting_object_le_iff]
  constructor
  · intro hms part _ v hv
    exact hms _ (Json.mem_of_member? hv)
  · intro hparts m hm
    obtain ⟨part, hpart, hkey, -⟩ := hall m hm
    apply hparts part hpart
    rw [hkey]
    exact Json.member?_of_mem hnodup hm

end HasMembers

/-! ## Bodies -/

mutual

/-- An expression is as deep as the value that it was read from. -/
theorem nesting_of_sexpr {v : Json} {e : Sexpr} (h : Sexpr.ofJson v = .ok e) : v.nesting = e.nesting := by
  cases v with
  | null | object => cases h
  | bool b | string text => exact Except.ok.inj h ▸ rfl
  | number n =>
    rw [Sexpr.ofJson] at h
    split at h
    · exact Except.ok.inj h ▸ rfl
    · cases h
  | array items =>
    obtain ⟨es, hes, rfl⟩ := Fallible.map_eq_ok_iff.mp h
    rw [Json.nesting, Sexpr.nesting, nesting_of_sexprs hes]

theorem nesting_of_sexprs {items : List Json} {es : List Sexpr} (h : Sexpr.ofJsonItems items = .ok es) :
    Json.itemsNesting items = sexprsNesting es := by
  cases items with
  | nil => exact Except.ok.inj h ▸ rfl
  | cons v rest =>
    obtain ⟨e, he, h⟩ := Fallible.bind_eq_ok_iff.mp h
    obtain ⟨es, hes, h⟩ := Fallible.bind_eq_ok_iff.mp h
    obtain rfl := Except.ok.inj h
    rw [Json.itemsNesting, sexprsNesting, nesting_of_sexpr he, nesting_of_sexprs hes]

end

variable {ms : Members} {pointer : Pointer} {v : Json} {n : Nat} {key : String}

/-- A body is as deep as it was written; one that is left out is empty. -/
theorem nesting_of_readReceiverBody {body : List Stmt} (h : readReceiverBody pointer ms = .ok body) (hn : 1 ≤ n) :
    (∀ v, Json.member? "body" ms = some v → v.nesting ≤ n) ↔ bodyLists body ≤ n := by
  unfold readReceiverBody at h
  obtain ⟨e, he, h⟩ := Fallible.bind_eq_ok_iff.mp h
  replace he := nesting_of_sexpr (placed_eq_ok_iff.mp he)
  split at h
  · next items =>
    rw [bodyLists_of_readBody (placed_eq_ok_iff.mp h), ← he]
    cases Json.member? "body" ms with
    | none =>
      refine iff_of_true ?_ hn
      rintro _ ⟨⟩
    | some v =>
      constructor
      · exact fun hv => hv v rfl
      · rintro hv _ ⟨⟩
        exact hv
  · cases h

/-! ## Texts and elements -/

theorem nesting_of_requiredText {s : String} (h : requiredText pointer ms key = .ok s) :
    ∀ v, Json.member? key ms = some v → v.nesting ≤ n := by
  rw [member_of_requiredText h]
  rintro _ ⟨⟩
  exact Nat.zero_le n

theorem nesting_of_requiredName {role : Identifier.Role} {s : String}
    (h : requiredName role pointer ms key = .ok s) : ∀ v, Json.member? key ms = some v → v.nesting ≤ n := by
  obtain ⟨name, hname, -⟩ := Fallible.bind_eq_ok_iff.mp h
  exact nesting_of_requiredText hname

section Elements

variable {items : List (Json × Pointer)} {kind : Json → Prop}

/-- The elements that are read are those of the array, if it is there. -/
theorem of_pointedElements (h : pointedElements pointer ms key = .ok items) :
    Json.member? key ms = some (.array (items.map (·.1))) ∨ Json.member? key ms = none ∧ items = [] := by
  obtain ⟨vs, hvs, h⟩ := Fallible.bind_eq_ok_iff.mp h
  obtain rfl := Except.ok.inj h
  unfold elements at hvs
  split at hvs
  · next hnone =>
    obtain rfl := Except.ok.inj hvs
    exact .inr ⟨hnone, rfl⟩
  · next hsome =>
    obtain rfl := Except.ok.inj hvs
    left
    rw [hsome, List.map_map]
    congr 2
    exact (List.zipIdx_map_fst 0 _).symm
  · cases hvs

theorem each_of_pointedElements (h : pointedElements pointer ms key = .ok items)
    (hkind : ∀ v, Json.member? key ms = some v → Each kind v) : ∀ item ∈ items, kind item.1 := by
  rcases of_pointedElements h with harray | ⟨-, rfl⟩
  · exact List.forall_mem_map.mp (hkind _ harray _ rfl)
  · nofun

theorem nesting_of_pointedElements (h : pointedElements pointer ms key = .ok items) :
    (∀ v, Json.member? key ms = some v → v.nesting ≤ n + 1) ↔ ∀ item ∈ items, item.1.nesting ≤ n := by
  rcases of_pointedElements h with harray | ⟨hnone, rfl⟩
  · have hitems : (Json.array (items.map (·.1))).nesting ≤ n + 1 ↔ ∀ item ∈ items, item.1.nesting ≤ n := by
      rw [Json.nesting_array_le_iff, List.forall_mem_map]
    rw [harray, ← hitems]
    constructor
    · exact fun hv => hv _ rfl
    · rintro hv _ ⟨⟩
      exact hv
  · rw [hnone]
    exact iff_of_true nofun nofun

end Elements

/-! ## Fields and messages -/

theorem nesting_of_readField {before : List Field} {f : Field} (h : readField before v pointer = .ok f)
    (hown : OwnField v) : v.nesting ≤ 1 := by
  obtain ⟨ms, typeName, rfl, hname, -, htype, -⟩ := exists_of_readField h
  rw [HasMembers.nesting_le_iff hown]
  simp only [List.forall_mem_cons]
  exact ⟨nesting_of_requiredName hname, nesting_of_requiredText htype, nofun⟩

theorem nesting_of_readFields {fields : List Field} (h : readFields pointer ms = .ok fields)
    (hown : ∀ v, Json.member? "fields" ms = some v → Each OwnField v) :
    ∀ v, Json.member? "fields" ms = some v → v.nesting ≤ 2 := by
  obtain ⟨items, hitems, h⟩ := Fallible.bind_eq_ok_iff.mp h
  rw [nesting_of_pointedElements hitems]
  intro item hitem
  obtain ⟨before, fields, hstep⟩ := Fallible.exists_of_mem_foldlM h hitem
  obtain ⟨f, hf, -⟩ := Fallible.bind_eq_ok_iff.mp hstep
  exact nesting_of_readField hf (each_of_pointedElements hitems hown item hitem)

theorem nesting_of_readHeader {header : Option Header} (h : readHeader pointer ms = .ok header) :
    ∀ v, Json.member? "header" ms = some v → v.nesting ≤ n := by
  intro v hv
  unfold readHeader at h
  rw [hv] at h
  cases v with
  | null | string => exact Nat.zero_le n
  | bool | number | array | object => cases h

theorem nesting_of_readMessage {m : Message} (h : readMessage v pointer = .ok m) (hown : OwnMessage v) :
    v.nesting ≤ 3 := by
  obtain ⟨ms, rfl, hname, hheader, hfields⟩ := exists_of_readMessage h
  have hkinds : ∀ v, Json.member? "fields" ms = some v → Each OwnField v :=
    HasMembers.member hown (by decide) (by simp)
  rw [HasMembers.nesting_le_iff hown]
  simp only [List.forall_mem_cons]
  exact ⟨nesting_of_requiredName hname, nesting_of_readHeader hheader, nesting_of_readFields hfields hkinds, nofun⟩

/-! ## Receivers -/

section Decode

open Json.Decode (finish)

theorem nesting_of_decodeMember {α : Type} {read : Json → Except Json.Decode.Error α} {a : Option α}
    (h : Json.Decode.member key read ms = .ok a)
    (hread : ∀ v a, Json.member? key ms = some v → read v = .ok a → v.nesting ≤ n) :
    ∀ v, Json.member? key ms = some v → v.nesting ≤ n := by
  intro v hv
  rw [Json.Decode.member, hv] at h
  obtain ⟨a, ha, -⟩ := Fallible.map_eq_ok_iff.mp h
  exact hread v a hv ha

theorem nesting_of_optional {α : Type} {read : Json → Except Json.Decode.Error α} {a : Option α}
    (h : Json.Decode.optional read v = .ok a) (hread : ∀ a, read v = .ok a → v.nesting ≤ n) : v.nesting ≤ n := by
  unfold Json.Decode.optional at h
  split at h
  · exact Nat.zero_le n
  · obtain ⟨a, ha, -⟩ := Fallible.map_eq_ok_iff.mp h
    exact hread a ha

theorem nesting_of_coordinate {k : Nat} (h : Position.coordinate v = .ok k) : v.nesting ≤ n := by
  cases v with
  | number => exact Nat.zero_le n
  | null | bool | string | array | object => cases h

theorem nesting_of_text {s : String} (h : Json.Decode.text v = .ok s) : v.nesting ≤ n := by
  cases v with
  | string => exact Nat.zero_le n
  | null | bool | number | array | object => cases h

theorem eq_nil_of_finish {setting : Json.Decode.Setting} {taken : Nat} {rest : List Json}
    (h : finish setting taken rest = .ok ()) : rest = [] := by
  cases rest with
  | nil => rfl
  | cons => cases h

theorem nesting_of_readPosition {position : Position} (h : Position.ofJson .plain v = .ok position)
    (hown : OwnPosition v) : v.nesting ≤ 1 := by
  unfold Position.ofJson at h
  split at h
  · obtain ⟨col, hcol, h⟩ := Fallible.bind_eq_ok_iff.mp h
    obtain ⟨line, hline, -⟩ := Fallible.bind_eq_ok_iff.mp h
    rw [HasMembers.nesting_le_iff hown]
    simp only [List.forall_mem_cons]
    exact ⟨nesting_of_decodeMember hline fun v k _ => nesting_of_coordinate,
      nesting_of_decodeMember hcol fun v k _ => nesting_of_coordinate, nofun⟩
  · cases h
  · obtain ⟨_, -, h⟩ := Fallible.bind_eq_ok_iff.mp h
    cases h
  · next line col rest =>
    obtain ⟨_, hline, h⟩ := Fallible.bind_eq_ok_iff.mp h
    obtain ⟨_, hcol, h⟩ := Fallible.bind_eq_ok_iff.mp h
    obtain ⟨_, hfinish, -⟩ := Fallible.bind_eq_ok_iff.mp h
    obtain rfl := eq_nil_of_finish hfinish
    rw [Json.nesting_array_le_iff]
    simp only [List.forall_mem_cons]
    exact ⟨nesting_of_coordinate hline, nesting_of_coordinate hcol, List.forall_mem_nil _⟩
  · cases h

theorem nesting_of_readSpan {span : Span} (h : Span.ofJson .plain v = .ok span) (hown : OwnSpan v) :
    v.nesting ≤ 2 := by
  obtain ⟨hmembers, heach⟩ := hown
  unfold Span.ofJson at h
  split at h
  · next ms =>
    have hposition {key : String}
        (hkey : (key, OwnPosition) ∈ [("start", OwnPosition), ("end", OwnPosition), ("file", Plain)])
        {v : Json} {position : Position} (hv : Json.member? key ms = some v)
        (hread : Position.ofJson .plain v = .ok position) : v.nesting ≤ 1 :=
      nesting_of_readPosition hread (hmembers.member (by decide) hkey v hv)
    obtain ⟨stop, hstop, h⟩ := Fallible.bind_eq_ok_iff.mp h
    obtain ⟨file, hfile, h⟩ := Fallible.bind_eq_ok_iff.mp h
    obtain ⟨start, hstart, -⟩ := Fallible.bind_eq_ok_iff.mp h
    rw [hmembers.nesting_le_iff]
    simp only [List.forall_mem_cons]
    refine ⟨?_, ?_, ?_, nofun⟩
    · exact nesting_of_decodeMember hstart fun v p hv => hposition (by simp) hv
    · exact nesting_of_decodeMember hstop fun v p hv hread =>
        nesting_of_optional hread fun p => hposition (by simp) hv
    · exact nesting_of_decodeMember hfile fun v s _ hread => nesting_of_optional hread fun s => nesting_of_text
  · cases h
  · next start rest =>
    have hkinds := heach _ rfl
    obtain ⟨_, hstart, h⟩ := Fallible.bind_eq_ok_iff.mp h
    obtain ⟨_, hstop, h⟩ := Fallible.bind_eq_ok_iff.mp h
    obtain ⟨_, hfile, h⟩ := Fallible.bind_eq_ok_iff.mp h
    obtain ⟨_, hfinish, -⟩ := Fallible.bind_eq_ok_iff.mp h
    replace hfinish := eq_nil_of_finish hfinish
    rw [Json.nesting_array_le_iff, List.forall_mem_cons]
    refine ⟨nesting_of_readPosition hstart (hkinds start List.mem_cons_self), ?_⟩
    -- there may be an end and a file, and nothing after them
    cases rest with
    | nil => exact List.forall_mem_nil _
    | cons stop rest =>
      obtain ⟨_, hstop, -⟩ := Fallible.bind_eq_ok_iff.mp hstop
      have hdeep := nesting_of_optional hstop fun p hread => nesting_of_readPosition hread (hkinds stop (by simp))
      rw [List.forall_mem_cons]
      refine ⟨hdeep, ?_⟩
      cases rest with
      | nil => exact List.forall_mem_nil _
      | cons file rest =>
        obtain rfl : rest = [] := hfinish
        obtain ⟨_, hfile, -⟩ := Fallible.bind_eq_ok_iff.mp hfile
        exact List.forall_mem_singleton.mpr (nesting_of_optional hfile fun s => nesting_of_text)
  · cases h

end Decode

theorem nesting_of_readLoc {loc : Option Span} (h : readLoc pointer ms = .ok loc)
    (hown : ∀ v, Json.member? "loc" ms = some v → OwnSpan v) :
    ∀ v, Json.member? "loc" ms = some v → v.nesting ≤ 2 := by
  intro v hv
  unfold readLoc at h
  split at h
  · next hnone => cases hnone.symm.trans hv
  · next hnull =>
    obtain rfl := Option.some.inj (hnull.symm.trans hv)
    exact Nat.zero_le 2
  · next v' _ hsome =>
    obtain rfl := Option.some.inj (hsome.symm.trans hv)
    obtain ⟨span, hspan, -⟩ := Fallible.map_eq_ok_iff.mp h
    exact nesting_of_readSpan (placed_eq_ok_iff.mp hspan) (hown _ hv)

theorem nesting_of_readBinding {name : String} (h : readBinding pointer ms = .ok name) :
    ∀ v, Json.member? "binding" ms = some v → v.nesting ≤ n := by
  obtain ⟨name, hname, -⟩ := Fallible.bind_eq_ok_iff.mp h
  exact nesting_of_requiredName hname

theorem nesting_of_readPartial {b : Bool} (h : readPartial pointer ms = .ok b) :
    ∀ v, Json.member? "partial" ms = some v → v.nesting ≤ n := by
  intro v hv
  unfold readPartial at h
  rw [hv] at h
  cases v with
  | bool => exact Nat.zero_le n
  | null | number | string | array | object => cases h

theorem nesting_of_readSelector {s : Selector} (h : readSelector v pointer = .ok s) (hown : OwnSelector v) :
    v.nesting ≤ 1 := by
  obtain ⟨ms, name, kind, rfl, hname, hread, h⟩ := exists_of_readSelector h
  have hkind := nesting_of_requiredText (n := 0) hname
  apply (hown ms name kind rfl (member_of_requiredText hname) hread).nesting_le_iff.mpr
  rw [List.forall_mem_map]
  cases h with
  | message hmessage hbinding =>
    simp only [SelectorKind.keys, List.forall_mem_cons]
    exact ⟨hkind, nesting_of_requiredText hmessage, nesting_of_readBinding hbinding, nofun⟩
  | empty =>
    simp only [SelectorKind.keys, List.forall_mem_cons]
    exact ⟨hkind, nofun⟩
  | comment htext =>
    simp only [SelectorKind.keys, List.forall_mem_cons]
    exact ⟨hkind, nesting_of_requiredText htext, nofun⟩
  | anyComment hbinding | any hbinding | anyBounced hbinding =>
    simp only [SelectorKind.keys, List.forall_mem_cons]
    exact ⟨hkind, nesting_of_readBinding hbinding, nofun⟩
  | bounced hmessage hbinding hpartial =>
    simp only [SelectorKind.keys, List.forall_mem_cons]
    exact ⟨hkind, nesting_of_requiredText hmessage, nesting_of_readBinding hbinding,
      nesting_of_readPartial hpartial, nofun⟩

/-- A receiver is as deep as its body, if that is deep at all. -/
theorem nesting_of_readReceiver {r : Receiver} (h : readReceiver v pointer = .ok r) (hown : OwnReceiver v)
    (hn : 2 ≤ n) : v.nesting ≤ n + 1 ↔ bodyLists r.body ≤ n := by
  obtain ⟨ms, s, rfl, hloc, hs, hselector, hbody⟩ := exists_of_readReceiver h
  have hspan : ∀ v, Json.member? "loc" ms = some v → v.nesting ≤ n := by
    intro v hv
    have hkinds : ∀ v, Json.member? "loc" ms = some v → OwnSpan v := HasMembers.member hown (by decide) (by simp)
    exact (nesting_of_readLoc hloc hkinds v hv).trans hn
  have hselect : ∀ v, Json.member? "selector" ms = some v → v.nesting ≤ n := by
    intro v hv
    obtain rfl := Option.some.inj (hs.symm.trans hv)
    have hkind : OwnSelector s := HasMembers.member hown (by decide) (by simp) s hs
    exact (nesting_of_readSelector hselector hkind).trans (by omega)
  rw [HasMembers.nesting_le_iff hown]
  simp only [List.forall_mem_cons]
  -- of the three members only the body may be too deep
  rw [nesting_of_readReceiverBody hbody (by omega)]
  constructor
  · exact fun hall => hall.2.2.1
  · exact fun hbody => ⟨hspan, hselect, hbody, nofun⟩

/-! ## Contracts -/

/-- A contract is as deep as the bodies of its receivers, if these are deep at all. -/
theorem nesting_of_readContract {c : Contract} (h : readContract v pointer = .ok c) (hown : OwnContract v)
    (hn : 2 ≤ n) : v.nesting ≤ n + 3 ↔ ∀ r ∈ c.receivers, bodyLists r.body ≤ n := by
  obtain ⟨ms, items, rfl, hname, hfields, hitems, hreceivers⟩ := exists_of_readContract h
  have hkinds : ∀ v, Json.member? "fields" ms = some v → Each OwnField v :=
    HasMembers.member hown (by decide) (by simp)
  have hkinds' : ∀ v, Json.member? "receivers" ms = some v → Each OwnReceiver v :=
    HasMembers.member hown (by decide) (by simp)
  have hdeep : ∀ v, Json.member? "fields" ms = some v → v.nesting ≤ n + 2 := by
    intro v hv
    exact (nesting_of_readFields hfields hkinds v hv).trans (by omega)
  have hall : (∀ item ∈ items, item.1.nesting ≤ n + 1) ↔ ∀ r ∈ c.receivers, bodyLists r.body ≤ n :=
    Fallible.forall_iff_of_forall₂ (Fallible.mapM_eq_ok_iff.mp hreceivers) fun item hitem r hr =>
      nesting_of_readReceiver hr (each_of_pointedElements hitems hkinds' item hitem) hn
  rw [HasMembers.nesting_le_iff hown]
  simp only [List.forall_mem_cons]
  rw [nesting_of_pointedElements hitems, hall]
  constructor
  · exact fun h => h.2.2.1
  · exact fun h => ⟨nesting_of_requiredName hname, hdeep, h, nofun⟩

end Document

open Document in
/-- A document is as deep as the bodies of its program, if these are deep at all: it takes five objects and arrays to
get to a body. -/
theorem Program.nesting_of_ofJson {doc : Json} {p : Program} (h : Program.ofJson doc = .ok p)
    (hown : UsesOwnKeys doc) {n : Nat} (hn : 2 ≤ n) :
    doc.nesting ≤ n + 5 ↔ ∀ c ∈ p.contracts, ∀ r ∈ c.receivers, bodyLists r.body ≤ n := by
  obtain ⟨ms, messages, items, rfl, hversion, hmessages, hregistry, hitems, hcontracts⟩ := exists_of_ofJson h
  have hkinds : ∀ v, Json.member? "messages" ms = some v → Each OwnMessage v :=
    HasMembers.member hown (by decide) (by simp)
  have hkinds' : ∀ v, Json.member? "contracts" ms = some v → Each OwnContract v :=
    HasMembers.member hown (by decide) (by simp)
  have hdeep : ∀ item ∈ messages, item.1.nesting ≤ n + 3 := by
    intro item hitem
    obtain ⟨before, after, hstep⟩ := Fallible.exists_of_mem_foldlM hregistry hitem
    obtain ⟨m, hm, -⟩ := exists_of_registerMessage hstep
    exact (nesting_of_readMessage hm (each_of_pointedElements hmessages hkinds item hitem)).trans (by omega)
  -- the contracts are read one by one, in their order
  obtain ⟨cs, hcs, hread⟩ := Fallible.forall₂_of_foldlM
    (R := fun item c => readContract item.1 item.2 = .ok c) hcontracts fun before item after hstep => by
      obtain ⟨c, hc, -, -, rfl⟩ := exists_of_addContract hstep
      exact ⟨c, rfl, hc⟩
  obtain rfl : p.contracts = cs := hcs
  have hall : (∀ item ∈ items, item.1.nesting ≤ n + 3) ↔ ∀ c ∈ p.contracts, ∀ r ∈ c.receivers, bodyLists r.body ≤ n :=
    Fallible.forall_iff_of_forall₂ hread fun item hitem c hc =>
      nesting_of_readContract hc (each_of_pointedElements hitems hkinds' item hitem) hn
  rw [HasMembers.nesting_le_iff hown]
  simp only [List.forall_mem_cons]
  rw [nesting_of_pointedElements hmessages, nesting_of_pointedElements hitems, hall]
  constructor
  · exact fun h => h.2.2.1
  · exact fun h => ⟨nesting_of_requiredText hversion, hdeep, h, nofun⟩

end MessageRouter
