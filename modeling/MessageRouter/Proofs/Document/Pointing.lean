import MessageRouter.Document.Reader
import MessageRouter.Proofs.Code.Word
import MessageRouter.Proofs.Fallible
/-!
# `Proofs.Document.Pointing` — where a fault of a document is

* `Json.pointer?`: the value of a document that a JSON pointer leads to.
* `Json.IsAt`: the places of messages, where the document itself is a slash.
* `Document.Error.Blames`: whether a value has what a cause says of it.
* `Pointer.LeadsTo`: pointers as the reader makes them, with `LeadsTo.key` and `LeadsTo.index` for its steps.
* `Document.ends_requiredText` and the like: each reader blames a value of the document, and never one that is absent.
* `Program.fault_points_into_document`: so does the reader of documents, and its message ends with the place.
-/
namespace MessageRouter

open Fallible (Ends)

/-! ## Pointers into a document -/

namespace Json

/-- A part of a pointer read as a key, in which `~1` is a slash and `~0` a tilde. -/
def unescape : List Char → List Char
  | '~' :: '1' :: rest => '/' :: unescape rest
  | '~' :: '0' :: rest => '~' :: unescape rest
  | c :: rest => c :: unescape rest
  | [] => []

/-- A part of a pointer read as an index, which has no sign and no zeros in front. -/
def index? (part : List Char) : Option Nat :=
  (Code.digits? 10 part).filter fun i => (toString i).toList = part

/-- The member of an object or the item of an array that a part of a pointer stands for. -/
def part? (v : Json) (part : List Char) : Option Json :=
  match v with
  | .object ms => member? (String.ofList (unescape part)) ms
  | .array items => (index? part).bind (items[·]?)
  | _ => none

/-- The value that a JSON pointer leads to, part by part, each of which has a slash in front. -/
def pointer? (doc : Json) (text : List Char) : Option Json :=
  match text.splitOn '/' with
  | [] :: parts => parts.foldlM part? doc
  | _ => none

/-- The place of a value in a message: a slash for the document itself, and a pointer for any other value. -/
def IsAt (doc : Json) (place : String) (v : Json) : Prop :=
  if place = "/" then v = doc else place ≠ "" ∧ doc.pointer? place.toList = some v

variable {doc v : Json} {path part : List Char} {key : String}

theorem pointer?_append (doc : Json) (path : List Char) (hpart : '/' ∉ part) :
    doc.pointer? (path ++ '/' :: part) = (doc.pointer? path).bind (part? · part) := by
  have hsplit : (path ++ '/' :: part).splitOn '/' = path.splitOn '/' ++ [part] := by
    unfold List.splitOn
    have hsingle : List.splitOnP (· == '/') part = [part] := by
      apply List.splitOnP_eq_singleton
      intro c hc
      rw [beq_eq_false_iff_ne]
      rintro rfl
      exact hpart hc
    rw [List.splitOnP_append_cons _ _ (by simp), hsingle]
  unfold pointer?
  rw [hsplit]
  cases hpath : path.splitOn '/' with
  | nil => exact absurd hpath (List.splitOnP_ne_nil _ _)
  | cons first parts =>
    cases first with
    | nil =>
      simp only [List.cons_append, List.foldlM_append]
      simp
    | cons c rest => rfl

/-- A key without tildes and slashes stands in a pointer as it is. -/
theorem unescape_eq_self (h : '~' ∉ part) : unescape part = part := by
  induction part with
  | nil => rfl
  | cons c rest ih =>
    obtain ⟨hc, hrest⟩ := List.ne_and_not_mem_of_not_mem_cons h
    rw [unescape, ih hrest]
    · rintro _ rfl
      exact absurd rfl hc
    · rintro _ rfl
      exact absurd rfl hc

theorem index?_toString (i : Nat) : index? (toString i).toList = some i := by
  have hdigits : (toString i).toList = Nat.toDigits 10 i := by simp
  rw [index?, hdigits, Code.digits?_toDigits (by decide) (by decide)]
  simp

end Json

/-! ## What a cause says of a value -/

/-- The last step of a pointer is a key. -/
def Pointer.EndsIn (p : Pointer) (key : String) : Prop := ∃ parent, p = .key parent key

/-- Whether the value at a pointer has what a cause says of it. -/
def Document.Error.Blames (p : Pointer) (v : Json) : Document.Error → Prop
  | .notObject => ∀ ms, v ≠ .object ms
  | .missing key => ∃ ms, v = .object ms ∧ Json.member? key ms = none
  | .notString key => p.EndsIn key ∧ ∀ s, v ≠ .string s
  | .notArray key => p.EndsIn key ∧ ∀ items, v ≠ .array items
  | .unknownSchema version => p.EndsIn "schema_version" ∧ v = .string version ∧ version ≠ documentSchema
  | .identifier cause => ∃ role name, v = .string name ∧ Identifier.check role name = .error cause
  | .header cause => p.EndsIn "header" ∧ ∃ s, v = .string s ∧ Header.read s = .error cause
  | .headerNotString => p.EndsIn "header" ∧ v ≠ .null ∧ ∀ s, v ≠ .string s
  | .duplicateField name | .duplicateContract name => p.EndsIn "name" ∧ v = .string name
  | .unknownFieldType name => p.EndsIn "ty" ∧ v = .string name ∧ FieldType.ofName? name = none
  | .duplicateMessage name => ∃ ms, v = .object ms ∧ Json.member? "name" ms = some (.string name)
  | .loc cause => p.EndsIn "loc" ∧ Span.ofJson .plain v = .error cause
  | .expression cause => p.EndsIn "body" ∧ Sexpr.ofJson v = .error cause
  | .bodyNotArray => p.EndsIn "body" ∧ ∀ items, v ≠ .array items
  | .body cause =>
    p.EndsIn "body" ∧ ∃ items, Sexpr.ofJson v = .ok (.list items) ∧ readBody items = .error cause
  | .selfBinding => p.EndsIn "binding" ∧ v = .string Place.self
  | .partialNotBool => p.EndsIn "partial" ∧ ∀ b, v ≠ .bool b

/-! ## Pointers of the reader -/

/-- A key that stands in a pointer as it is. -/
def IsPlainKey (key : String) : Prop := key ≠ "" ∧ '~' ∉ key.toList ∧ '/' ∉ key.toList

instance (key : String) : Decidable (IsPlainKey key) :=
  inferInstanceAs (Decidable (key ≠ "" ∧ '~' ∉ key.toList ∧ '/' ∉ key.toList))

namespace Pointer

/-- All keys of a pointer stand in it as they are. -/
def IsPlain : Pointer → Prop
  | root => True
  | key parent name => parent.IsPlain ∧ IsPlainKey name
  | index parent _ => parent.IsPlain

/-- A pointer of plain keys that leads to a value. -/
structure LeadsTo (doc : Json) (p : Pointer) (v : Json) : Prop where
  plain : p.IsPlain
  resolves : p.resolve? doc = some v

variable {doc v : Json} {p : Pointer}

theorem leadsTo_root (doc : Json) : root.LeadsTo doc doc := ⟨trivial, rfl⟩

theorem LeadsTo.key {ms : List (String × Json)} {name : String} (h : p.LeadsTo doc (.object ms))
    (hname : IsPlainKey name) (hv : Json.member? name ms = some v) : (key p name).LeadsTo doc v := by
  refine ⟨⟨h.plain, hname⟩, ?_⟩
  rw [resolve?, h.resolves]
  exact hv

theorem LeadsTo.index {items : List Json} {i : Nat} (h : p.LeadsTo doc (.array items))
    (hv : items[i]? = some v) : (index p i).LeadsTo doc v := by
  refine ⟨h.plain, ?_⟩
  rw [resolve?, h.resolves]
  exact hv

/-- The steps are a JSON pointer to the same value. -/
theorem LeadsTo.pointer?_steps (h : p.LeadsTo doc v) : doc.pointer? p.steps.toList = some v := by
  obtain ⟨hplain, hv⟩ := h
  -- by induction on the steps: no name among them holds a tilde or a slash, and no index does
  induction p generalizing v with
  | root => exact hv
  | key parent name ih =>
    obtain ⟨hparent, -, htilde, hslash⟩ := hplain
    have hsteps : (Pointer.key parent name).steps.toList = parent.steps.toList ++ '/' :: name.toList := by
      simp [steps]
    rw [resolve?] at hv
    split at hv
    · next ms hms =>
      rw [hsteps, Json.pointer?_append doc _ hslash, ih hparent hms, Option.bind_some, Json.part?,
        Json.unescape_eq_self htilde, String.ofList_toList]
      exact hv
    · cases hv
  | index parent i ih =>
    have hsteps : (Pointer.index parent i).steps.toList = parent.steps.toList ++ '/' :: (toString i).toList := by
      simp [steps]
    have hslash : '/' ∉ (toString i).toList := by
      intro hmem
      have hdigit := Nat.isDigit_of_mem_toDigits (b := 10) (n := i) (by decide) (by decide) (by simpa using hmem)
      exact absurd hdigit (by decide)
    rw [resolve?] at hv
    split at hv
    · next items hitems =>
      rw [hsteps, Json.pointer?_append doc _ hslash, ih hplain hitems, Option.bind_some, Json.part?,
        Json.index?_toString, Option.bind_some]
      exact hv
    · cases hv

/-- Every step takes a slash and something behind it. -/
theorem IsPlain.steps_length (h : p.IsPlain) (hp : p ≠ root) : 2 ≤ p.steps.length := by
  have hslash : "/".length = 1 := rfl
  cases p with
  | root => exact absurd rfl hp
  | key parent name =>
    have hname : name.length ≠ 0 := fun hlength => h.2.1 (String.length_eq_zero_iff.mp hlength)
    simp only [steps, String.length_append]
    omega
  | index parent i =>
    have hi : (toString i).length ≠ 0 := fun hlength =>
      Nat.repr_ne_empty (String.length_eq_zero_iff.mp hlength)
    simp only [steps, String.length_append]
    omega

/-- The text of a pointer is the place of the value that it leads to. -/
theorem LeadsTo.isAt (h : p.LeadsTo doc v) : doc.IsAt p.text v := by
  unfold Json.IsAt
  by_cases hp : p = root
  · subst hp
    rw [if_pos (by rfl)]
    exact (Option.some.inj h.resolves).symm
  · have htext : p.text = p.steps := by
      cases p with
      | root => exact absurd rfl hp
      | key | index => rfl
    have hlength := h.plain.steps_length hp
    have hslash : p.text ≠ "/" := by
      intro heq
      rw [← htext, heq] at hlength
      exact absurd hlength (by decide)
    have hempty : p.text ≠ "" := by
      intro heq
      rw [← htext, heq] at hlength
      exact absurd hlength (by decide)
    rw [if_neg hslash, htext]
    exact ⟨htext ▸ hempty, h.pointer?_steps⟩

end Pointer

/-! ## The readers -/

/-- A cause that blames the value at its pointer. A clash of receivers blames none. -/
def Fault.PointsInto (doc : Json) (f : Fault) : Prop :=
  match f.cause with
  | .document cause pointer => ∃ v, pointer.LeadsTo doc v ∧ cause.Blames pointer v
  | .unknownSelector kind pointer =>
    ∃ v, pointer.LeadsTo doc v ∧ pointer.EndsIn "kind" ∧ v = .string kind ∧
      Document.SelectorKind.ofName? kind = none
  | .layout _ | .duplicateReceiver .. | .duplicateOpcode .. => True
  | _ => False

namespace Document

variable {doc v : Json} {p : Pointer} {ms : Members} {key : String}

theorem ends_fail {α : Type} {good : α → Prop} {cause : Error} (h : p.LeadsTo doc v) (hcause : cause.Blames p v) :
    Ends good (Fault.PointsInto doc) (fail p cause) := ⟨v, h, hcause⟩

theorem ends_fail_bind {α β : Type} {good : β → Prop} {cause : Error} {f : α → Except Fault β}
    (h : p.LeadsTo doc v) (hcause : cause.Blames p v) :
    Ends good (Fault.PointsInto doc) (fail p cause >>= f) := ⟨v, h, hcause⟩

/-- An offence that is placed at the value that it is true of. -/
theorem ends_placed {α ε : Type} (wrap : ε → Error) {result : Except ε α} (h : p.LeadsTo doc v)
    (hwrap : ∀ e, result = .error e → (wrap e).Blames p v) :
    Ends (fun a => result = .ok a) (Fault.PointsInto doc) (placed p wrap result) := by
  cases result with
  | ok a => exact rfl
  | error e => exact ends_fail h (hwrap e rfl)

theorem ends_members (h : p.LeadsTo doc v) :
    Ends (fun ms => v = .object ms) (Fault.PointsInto doc) (members p v) := by
  cases v with
  | object ms => exact rfl
  | null | bool | number | string | array => exact ends_fail h nofun

theorem ends_requiredText (h : p.LeadsTo doc (.object ms)) (hkey : IsPlainKey key) :
    Ends (fun s => Json.member? key ms = some (.string s)) (Fault.PointsInto doc) (requiredText p ms key) := by
  unfold requiredText
  cases hv : Json.member? key ms with
  | none => exact ends_fail h ⟨ms, rfl, hv⟩
  | some v =>
    cases v with
    | string s => exact rfl
    | null | bool | number | array | object => exact ends_fail (h.key hkey hv) ⟨⟨p, rfl⟩, nofun⟩

/-- Items have pointers to them; where there is no array, there are no items. -/
theorem ends_pointedElements (h : p.LeadsTo doc (.object ms)) (hkey : IsPlainKey key) :
    Ends (fun items => ∀ item ∈ items, item.2.LeadsTo doc item.1) (Fault.PointsInto doc)
      (pointedElements p ms key) := by
  unfold pointedElements elements
  cases hv : Json.member? key ms with
  | none => exact nofun
  | some v =>
    cases v with
    | array items =>
      rintro _ hitem
      obtain ⟨⟨v, i⟩, hvi, rfl⟩ := List.mem_map.mp hitem
      exact (h.key hkey hv).index (List.mem_zipIdx_iff_getElem?.mp hvi)
    | null | bool | number | string | object => exact ends_fail (h.key hkey hv) ⟨⟨p, rfl⟩, nofun⟩

theorem ends_requiredName {role : Identifier.Role} (h : p.LeadsTo doc (.object ms)) (hkey : IsPlainKey key) :
    Ends (fun s => Json.member? key ms = some (.string s)) (Fault.PointsInto doc)
      (requiredName role p ms key) := by
  refine (ends_requiredText h hkey).bind fun name hname => ?_
  refine (ends_placed Error.identifier (h.key hkey hname) ?_).bind fun _ _ => hname
  intro e he
  exact ⟨role, name, rfl, he⟩

/-! ### Messages -/

theorem ends_readField (before : List Field) (h : p.LeadsTo doc v) :
    Ends (fun _ => True) (Fault.PointsInto doc) (readField before v p) := by
  refine (ends_members h).bind ?_
  rintro ms rfl
  refine (ends_requiredName h (by decide)).bind fun name hname => ?_
  split
  · exact ends_fail_bind (h.key (by decide) hname) ⟨⟨p, rfl⟩, rfl⟩
  · refine (ends_requiredText h (by decide)).bind fun typeName htype => ?_
    cases hread : FieldType.ofName? typeName with
    | some type => trivial
    | none => exact ends_fail (h.key (by decide) htype) ⟨⟨p, rfl⟩, rfl, hread⟩

theorem ends_readFields (h : p.LeadsTo doc (.object ms)) :
    Ends (fun _ => True) (Fault.PointsInto doc) (readFields p ms) := by
  refine (ends_pointedElements h (by decide)).bind fun items hitems => .foldlM fun before item hitem => ?_
  exact (ends_readField before (hitems item hitem)).bind fun _ _ => trivial

theorem ends_readHeader (h : p.LeadsTo doc (.object ms)) :
    Ends (fun _ => True) (Fault.PointsInto doc) (readHeader p ms) := by
  unfold readHeader
  split
  · trivial
  · trivial
  · next s hs =>
    refine (ends_placed Error.header (h.key (by decide) hs) ?_).map _
    intro e he
    exact ⟨⟨p, rfl⟩, s, rfl, he⟩
  · next v hnull hstring hv =>
    refine ends_fail (h.key (by decide) hv) ⟨⟨p, rfl⟩, ?_, ?_⟩
    · rintro rfl
      exact hnull rfl
    · rintro s rfl
      exact hstring s rfl

/-- A message, which is an object and has its name. -/
theorem ends_readMessage (h : p.LeadsTo doc v) :
    Ends (fun m => ∃ ms, v = .object ms ∧ Json.member? "name" ms = some (.string m.name)) (Fault.PointsInto doc)
      (readMessage v p) := by
  refine (ends_members h).bind ?_
  rintro ms rfl
  refine (ends_requiredName h (by decide)).bind fun name hname => ?_
  refine (ends_readHeader h).bind fun header _ => ?_
  refine (ends_readFields h).bind fun fields _ => ?_
  exact ⟨ms, rfl, hname⟩

theorem ends_registerMessage (registry : Registry) (h : p.LeadsTo doc v) :
    Ends (fun _ => True) (Fault.PointsInto doc) (registerMessage registry v p) := by
  refine (ends_readMessage h).bind fun m hm => ?_
  cases registry.insert? m with
  | some registry => trivial
  | none => exact ends_fail h hm

/-! ### Receivers -/

theorem ends_readBinding (h : p.LeadsTo doc (.object ms)) :
    Ends (fun _ => True) (Fault.PointsInto doc) (readBinding p ms) := by
  refine (ends_requiredName h (by decide)).bind fun name hname => ?_
  split
  · next hself => exact ends_fail_bind (h.key (by decide) hname) ⟨⟨p, rfl⟩, congrArg Json.string hself⟩
  · trivial

theorem ends_readPartial (h : p.LeadsTo doc (.object ms)) :
    Ends (fun _ => True) (Fault.PointsInto doc) (readPartial p ms) := by
  unfold readPartial
  split
  · trivial
  · trivial
  · next v hbool hv =>
    refine ends_fail (h.key (by decide) hv) ⟨⟨p, rfl⟩, ?_⟩
    rintro b rfl
    exact hbool b rfl

theorem ends_readSelector (h : p.LeadsTo doc v) :
    Ends (fun _ => True) (Fault.PointsInto doc) (readSelector v p) := by
  refine (ends_members h).bind ?_
  rintro ms rfl
  refine (ends_requiredText h (by decide)).bind fun kind hkind => ?_
  have hbinding := ends_readBinding h
  have hplain : IsPlainKey "message" := by decide
  have hmessage := ends_requiredText h hplain
  cases hread : SelectorKind.ofName? kind with
  | none => exact ⟨.string kind, h.key (by decide) hkind, ⟨p, rfl⟩, rfl, hread⟩
  | some k =>
    cases k with
    | message d => exact hmessage.bind fun _ _ => hbinding.bind fun _ _ => trivial
    | empty d => trivial
    | comment d => exact (ends_requiredText h (by decide)).bind fun _ _ => trivial
    | anyComment d | any d | anyBounced => exact hbinding.bind fun _ _ => trivial
    | bounced =>
      exact hmessage.bind fun _ _ => hbinding.bind fun _ _ => (ends_readPartial h).bind fun _ _ => trivial

/-- Whatever is wrong with a location is said of all of it. -/
theorem ends_readLoc (h : p.LeadsTo doc (.object ms)) :
    Ends (fun _ => True) (Fault.PointsInto doc) (readLoc p ms) := by
  unfold readLoc
  split
  · trivial
  · trivial
  · next v _ hv => exact (ends_placed Error.loc (h.key (by decide) hv) fun e he => ⟨⟨p, rfl⟩, he⟩).map _

/-- A body that is left out is empty, which is not wrong. -/
theorem ends_readReceiverBody (h : p.LeadsTo doc (.object ms)) :
    Ends (fun _ => True) (Fault.PointsInto doc) (readReceiverBody p ms) := by
  unfold readReceiverBody
  cases hv : Json.member? "body" ms with
  | none => trivial
  | some v =>
    have hbody := h.key (by decide) hv
    refine (ends_placed Error.expression hbody fun e he => ⟨⟨p, rfl⟩, he⟩).bind fun e he => ?_
    cases e with
    | list items =>
      exact (ends_placed Error.body hbody fun cause hcause => ⟨⟨p, rfl⟩, items, he, hcause⟩).imp
        (fun _ _ => trivial) fun _ h => h
    | int i | word text =>
      refine ends_fail hbody ⟨⟨p, rfl⟩, ?_⟩
      rintro items rfl
      obtain ⟨es, -, hes⟩ := Fallible.map_eq_ok_iff.mp he
      cases hes

theorem ends_readReceiver (h : p.LeadsTo doc v) :
    Ends (fun _ => True) (Fault.PointsInto doc) (readReceiver v p) := by
  refine (ends_members h).bind ?_
  rintro ms rfl
  refine (ends_readLoc h).bind fun loc _ => ?_
  cases hs : Json.member? "selector" ms with
  | none => exact ends_fail h ⟨ms, rfl, hs⟩
  | some s =>
    refine (ends_readSelector (h.key (by decide) hs)).bind fun selector _ => ?_
    exact (ends_readReceiverBody h).bind fun _ _ => trivial

/-! ### Contracts -/

theorem ends_readContract (h : p.LeadsTo doc v) :
    Ends (fun c => ∃ ms, v = .object ms ∧ Json.member? "name" ms = some (.string c.name)) (Fault.PointsInto doc)
      (readContract v p) := by
  refine (ends_members h).bind ?_
  rintro ms rfl
  refine (ends_requiredName h (by decide)).bind fun name hname => ?_
  refine (ends_readFields h).bind fun fields _ => ?_
  refine (ends_pointedElements h (by decide)).bind fun items hitems => ?_
  have hreceivers := Ends.mapM fun item hitem => ends_readReceiver (hitems item hitem)
  exact hreceivers.bind fun receivers _ => ⟨ms, rfl, hname⟩

theorem ends_checkSlotsFrom (doc : Json) (c : Contract) (registry : Registry) (taken : List (Slot × Nat))
    (receivers : List (Receiver × Nat)) :
    Ends (fun _ => True) (Fault.PointsInto doc) (c.checkSlotsFrom registry taken receivers) := by
  induction receivers generalizing taken with
  | nil => trivial
  | cons first rest ih =>
    obtain ⟨r, i⟩ := first
    unfold Contract.checkSlotsFrom
    split
    · trivial
    · exact ih taken
    · split
      · -- a clash is told with the positions of two receivers, not with a place in the document
        next first _ =>
        unfold Fault.Cause.clash
        split <;> trivial
      · exact ih _

theorem ends_addContract (registry : Registry) (before : List Contract) (h : p.LeadsTo doc v) :
    Ends (fun _ => True) (Fault.PointsInto doc) (addContract registry before v p) := by
  refine (ends_readContract h).bind ?_
  rintro c ⟨ms, rfl, hname⟩
  split
  · exact ends_fail_bind (h.key (by decide) hname) ⟨⟨p, rfl⟩, rfl⟩
  · have hslots := Ends.forM fun d (_ : d ∈ Direction.all) =>
      ends_checkSlotsFrom doc c registry [] (c.receiversFor d)
    exact hslots.bind fun _ _ => trivial

end Document

open Document in
/-- A document that is not read is blamed for one of its values, or for receivers that clash. -/
theorem Program.ends_ofJson (doc : Json) :
    Ends (fun _ => True) (Fault.PointsInto doc) (Program.ofJson doc) := by
  have hdoc := Pointer.leadsTo_root doc
  refine (ends_members hdoc).bind ?_
  rintro ms rfl
  refine (ends_requiredText hdoc (by decide)).bind fun version hversion => ?_
  split
  · next hunknown => exact ends_fail_bind (hdoc.key (by decide) hversion) ⟨⟨.root, rfl⟩, rfl, hunknown⟩
  · refine (ends_pointedElements hdoc (by decide)).bind fun messages hmessages => ?_
    have hregistry (registry : Registry) := Ends.foldlM (b := registry) fun before item hitem =>
      ends_registerMessage before (hmessages item hitem)
    refine (hregistry .empty).bind fun registry _ => ?_
    refine (ends_pointedElements hdoc (by decide)).bind fun contracts hcontracts => ?_
    have hall := Ends.foldlM (b := []) fun before item hitem =>
      ends_addContract registry before (hcontracts item hitem)
    exact hall.bind fun _ _ => trivial

/-- A fault of the form of a document ends with the place of a value of the document that is at fault. A missing member
is one that the object at that place lacks, but for the members within a location: whatever is wrong with one of
these is said of the whole location. -/
theorem Program.fault_points_into_document {doc : Json} {f : Fault} (h : Program.ofJson doc = .error f)
    (hkind : f.kind = .parse ∨ ∃ kind pointer, f.cause = .unknownSelector kind pointer) :
    ∃ reason pointer v, f.message = reason ++ " at " ++ pointer.text ∧ doc.IsAt pointer.text v ∧
      ((∃ cause, f.cause = .document cause pointer ∧ reason = cause.message ∧ cause.Blames pointer v) ∨
        ∃ kind, f.cause = .unknownSelector kind pointer ∧ pointer.EndsIn "kind" ∧ v = .string kind ∧
          Document.SelectorKind.ofName? kind = none) := by
  have hinto := (Program.ends_ofJson doc).of_error h
  obtain ⟨cause, loc⟩ := f
  cases cause with
  | document cause pointer =>
    obtain ⟨v, hv, hblames⟩ := hinto
    exact ⟨cause.message, pointer, v, rfl, hv.isAt, .inl ⟨cause, rfl, rfl, hblames⟩⟩
  | unknownSelector kind pointer =>
    obtain ⟨v, hv, hends, hkind, hread⟩ := hinto
    exact ⟨_, pointer, v, rfl, hv.isAt, .inr ⟨kind, rfl, hends, hkind, hread⟩⟩
  | layout | duplicateReceiver | duplicateOpcode =>
    rcases hkind with hkind | ⟨_, _, hcause⟩
    · cases hkind
    · cases hcause
  | json | scope | comment | documentSize | outputSize | noReceiver => exact hinto.elim

/-- A document with one receiver, which is declared at a line, and whose column stands beside the start of the span. -/
def Json.misplacedColumn : Json :=
  .object [("contracts", .array [.object [("name", .string "Gate"),
      ("receivers", .array [.object [("body", .array []),
        ("loc", .object [("col", .int 2), ("start", .object [("line", .int 4)])]),
        ("selector", .object [("kind", .string "internal-empty")])]])]]),
    ("schema_version", .string documentSchema)]

/-- The object that lacks a column is not the one that is blamed for it, which has one. -/
theorem misplacedColumn_blames_loc :
    ∃ f, Program.ofJson .misplacedColumn = .error f ∧ f.kind = .parse ∧
      f.message = "missing field `col` at /contracts/0/receivers/0/loc" ∧
      ¬ (∃ ms, Json.misplacedColumn.IsAt "/contracts/0/receivers/0/loc" (.object ms) ∧
        Json.member? "col" ms = none) ∧
      ∃ ms, Json.misplacedColumn.IsAt "/contracts/0/receivers/0/loc/start" (.object ms) ∧
        Json.member? "col" ms = none := by
  refine ⟨_, rfl, rfl, by rfl, ?_, [("line", .int 4)], ?_, rfl⟩
  · rintro ⟨ms, hloc, hcol⟩
    rw [Json.IsAt, if_neg (by decide)] at hloc
    obtain ⟨-, hms⟩ := hloc
    obtain rfl : [("col", .int 2), ("start", .object [("line", .int 4)])] = ms :=
      Json.object.inj (Option.some.inj hms)
    cases hcol
  · rw [Json.IsAt, if_neg (by decide)]
    exact ⟨by decide, rfl⟩

theorem misplacedColumn_points_into_document :
    ∃ (f : Fault) (reason : String) (pointer : Pointer) (v : Json),
      Program.ofJson .misplacedColumn = .error f ∧ f.message = reason ++ " at " ++ pointer.text ∧
        Json.misplacedColumn.IsAt pointer.text v := by
  obtain ⟨f, hf, hkind⟩ : ∃ f, Program.ofJson .misplacedColumn = .error f ∧ f.kind = .parse := ⟨_, rfl, rfl⟩
  obtain ⟨reason, pointer, v, hmessage, hv, -⟩ := Program.fault_points_into_document hf (.inl hkind)
  exact ⟨f, reason, pointer, v, hf, hmessage, hv⟩

end MessageRouter
