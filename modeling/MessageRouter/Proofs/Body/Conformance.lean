import Mathlib.Data.List.Forall2
import Mathlib.Data.List.Nodup
import MessageRouter.Simulator.Frame
/-!
# `Proofs.Body.Conformance` — what a frame holds against what a scope says

* `Record.Holds`: a record has a value of the right kind for each of some fields.
* `Received.Fits`: what a receiver gets is of the kind its payload says.
* `Frame.Fits`: a frame has a value for every name of a scope, and no local is a slice.
* `Frame.Fits.declare`, `push`, `pop`, `of_setLocal?`, `setField`: what keeps a frame fitting.
-/
namespace MessageRouter

/-! ## Records -/

/-- A value of the right kind for each of some fields; of several fields of one name the first counts. -/
def Record.Holds (fields : List Field) (r : Record) : Prop :=
  ∀ name f, Scope.field? fields name = some f →
    ∃ v, r.get? name = some v ∧ v.kind = Value.Kind.ofType f.type

/-- A field is found under its name. -/
theorem Scope.mem_of_field? {fields : List Field} {name : String} {f : Field}
    (h : Scope.field? fields name = some f) : f ∈ fields ∧ f.name = name :=
  ⟨List.mem_of_find?_eq_some h, by simpa using List.find?_some h⟩

/-- Under the name of a field, a field is found. -/
theorem Scope.exists_field?_of_mem {fields : List Field} {f : Field} (hf : f ∈ fields) :
    ∃ g, Scope.field? fields f.name = some g :=
  Option.isSome_iff_exists.mp (List.find?_isSome.mpr ⟨f, hf, by simp⟩)

/-- Of fields of different names, each is found. -/
theorem Scope.field?_of_mem {fields : List Field} (hfields : (fields.map (·.name)).Nodup) {f : Field}
    (hf : f ∈ fields) : Scope.field? fields f.name = some f := by
  obtain ⟨g, hg⟩ := exists_field?_of_mem hf
  obtain ⟨hmem, hname⟩ := mem_of_field? hg
  obtain rfl : g = f := List.inj_on_of_nodup_map hfields hmem hf hname
  exact hg

theorem Value.Kind.ofType_ne_slice (t : FieldType) : Value.Kind.ofType t ≠ .slice := by
  cases t <;> exact nofun

namespace Record

/-! ### Setting the first entry of a name -/

/-- An entry is set exactly where there is one of the name. -/
theorem isSome_setFirst {name : String} {v : Value} {es : List (String × Value)} :
    (setFirst name v es).isSome = true ↔ name ∈ es.map (·.1) := by
  induction es with
  | nil => exact ⟨nofun, nofun⟩
  | cons e rest ih =>
    obtain ⟨n, w⟩ := e
    rw [setFirst, List.map_cons, List.mem_cons]
    by_cases h : n = name
    · rw [if_pos h]
      exact ⟨fun _ => .inl h.symm, fun _ => rfl⟩
    · rw [if_neg h, Option.isSome_map, ih]
      exact ⟨.inr, fun hmem => hmem.resolve_left fun he => h he.symm⟩

/-- Setting an entry keeps the names, and the values of the others. -/
theorem of_setFirst_eq_some {name : String} {v : Value} {es es' : List (String × Value)}
    (h : setFirst name v es = some es') :
    es'.map (·.1) = es.map (·.1) ∧ ∀ e ∈ es', e ∈ es ∨ e.2 = v := by
  obtain ⟨front, old, back, rfl, -, rfl⟩ := setFirst_eq_some_iff.mp h
  refine ⟨by simp, fun e he => ?_⟩
  rcases List.mem_append.mp he with he | he
  · exact .inl (List.mem_append_left _ he)
  · rcases List.mem_cons.mp he with rfl | he
    · exact .inr rfl
    · exact .inl (List.mem_append_right _ (List.mem_cons_of_mem _ he))

/-- A field that a record holds can be set. -/
theorem exists_set?_of_get? {r : Record} {name : String} {v : Value} (h : r.get? name = some v)
    (w : Value) : ∃ r', r.set? name w = some r' := by
  obtain ⟨e, he, -⟩ := Option.map_eq_some_iff.mp h
  have hname : e.1 = name := by simpa using List.find?_some he
  have hmem : name ∈ r.entries.map (·.1) :=
    List.mem_map.mpr ⟨e, List.mem_of_find?_eq_some he, hname⟩
  obtain ⟨es, hes⟩ := Option.isSome_iff_exists.mp (isSome_setFirst (v := w).mpr hmem)
  exact ⟨⟨es⟩, by rw [set?, hes]; rfl⟩

/-- Setting a field to a value of its kind keeps what a record holds. -/
theorem Holds.set {fields : List Field} {r r' : Record} (h : r.Holds fields) {name : String}
    {f : Field} (hf : Scope.field? fields name = some f) {v : Value}
    (hv : v.kind = Value.Kind.ofType f.type) (hset : r.set? name v = some r') :
    r'.Holds fields := by
  intro other g hg
  by_cases hn : other = name
  · subst hn
    obtain rfl : f = g := Option.some.inj (hf.symm.trans hg)
    exact ⟨v, by rw [get?_of_set? hset, if_pos rfl], hv⟩
  · obtain ⟨w, hw, hkind⟩ := h other g hg
    exact ⟨w, by rw [get?_of_set? hset, if_neg hn, hw], hkind⟩

/-- Entries for fields one by one hold the fields. -/
theorem holds_of_forall₂ {fields : List Field} {es : List (String × Value)}
    (h : List.Forall₂ (fun f e => e.1 = f.name ∧ e.2.kind = Value.Kind.ofType f.type) fields es) :
    (Record.mk es).Holds fields := by
  intro name g hg
  induction h with
  | nil => exact nomatch hg
  | @cons f e fields es hfe _ ih =>
    obtain ⟨hname, hkind⟩ := hfe
    rw [Scope.field?, List.find?_cons] at hg
    rw [get?, List.find?_cons, hname]
    cases hn : f.name == name with
    | true =>
      rw [hn] at hg
      obtain rfl := Option.some.inj hg
      exact ⟨e.2, rfl, hkind⟩
    | false =>
      rw [hn] at hg
      exact ih hg

end Record

/-! ## Payloads -/

namespace Simulator

/-- What a receiver gets is of the kind its payload says. -/
def Received.Fits : Payload → Received → Prop
  | .none, .nothing => True
  | .struct _ _ fields _ _, .struct message => message.Holds fields
  | .slice _, .slice _ => True
  | _, _ => False

/-! ## Frames -/

namespace Frame

/-- A frame has a value for every name of a scope, and no local is a slice. -/
structure Fits (s : Scope) (f : Frame) : Prop where
  inner : f.inner.map (·.1) = s.inner
  outer : f.outer.map (·.map (·.1)) = s.outer
  noSlice : ∀ locals ∈ f.inner :: f.outer, ∀ e ∈ locals, e.2.kind ≠ .slice
  state : f.state.Holds s.state

variable {s : Scope} {f : Frame}

/-- A body starts in a frame that fits its scope. -/
theorem fits_ofState {fields : List Field} {payload : Payload} {state : Record}
    (h : state.Holds fields) : (ofState state).Fits (Scope.ofReceiver fields payload) where
  inner := rfl
  outer := rfl
  noSlice := by
    intro locals hlocals e he
    obtain rfl := List.mem_singleton.mp hlocals
    exact nomatch he
  state := h

theorem Fits.push (h : f.Fits s) : f.push.Fits s.push where
  inner := rfl
  outer := by
    show f.inner.map (·.1) :: f.outer.map (·.map (·.1)) = s.inner :: s.outer
    rw [h.inner, h.outer]
  noSlice := by
    intro locals hlocals e he
    rcases List.mem_cons.mp hlocals with rfl | hlocals
    · exact nomatch he
    · exact h.noSlice locals hlocals e he
  state := h.state

theorem Fits.pop (h : f.Fits s) : f.pop.Fits s.pop := by
  obtain ⟨state, inner, outer⟩ := f
  obtain ⟨sstate, payload, sinner, souter⟩ := s
  obtain ⟨hinner, houter, hnoSlice, hstate⟩ := h
  cases outer with
  | nil =>
    obtain rfl : [] = souter := houter
    exact ⟨hinner, rfl, hnoSlice, hstate⟩
  | cons locals outer =>
    cases houter
    exact ⟨rfl, rfl, fun l hl => hnoSlice l (List.mem_cons_of_mem _ hl), hstate⟩

theorem Fits.declare (h : f.Fits s) {t : Scope} {name : String} (ht : s.declare name = .ok t)
    {v : Value} (hv : v.kind ≠ .slice) : (f.declare name v).Fits t := by
  obtain ⟨-, -, rfl⟩ := Scope.declare_eq_ok_iff.mp ht
  refine ⟨?_, h.outer, ?_, h.state⟩
  · show name :: f.inner.map (·.1) = name :: s.inner
    rw [h.inner]
  · intro locals hlocals e he
    rcases List.mem_cons.mp hlocals with rfl | hlocals
    · rcases List.mem_cons.mp he with rfl | he
      · exact hv
      · exact h.noSlice _ List.mem_cons_self e he
    · exact h.noSlice _ (List.mem_cons_of_mem _ hlocals) e he

/-! ### Locals -/

/-- What is found as a local stands in some block. -/
theorem mem_of_local? {name : String} {v : Value} (h : f.local? name = some v) :
    ∃ locals ∈ f.inner :: f.outer, (name, v) ∈ locals := by
  have hlookup {locals : List (String × Value)} (hl : locals.lookup name = some v) :
      (name, v) ∈ locals := by
    obtain ⟨before, after, rfl, -⟩ := List.lookup_eq_some_iff.mp hl
    simp
  rcases Option.or_eq_some_iff.mp h with h | ⟨-, h⟩
  · exact ⟨f.inner, List.mem_cons_self, hlookup h⟩
  · obtain ⟨locals, hmem, hl⟩ := List.exists_of_findSome?_eq_some h
    exact ⟨locals, List.mem_cons_of_mem _ hmem, hlookup hl⟩

theorem lookup_isSome_iff {locals : List (String × Value)} {name : String} :
    (locals.lookup name).isSome = true ↔ name ∈ locals.map (·.1) := by
  induction locals with
  | nil => exact ⟨nofun, nofun⟩
  | cons e rest ih =>
    obtain ⟨n, v⟩ := e
    rw [List.lookup_cons, List.map_cons, List.mem_cons]
    by_cases h : name = n
    · simp [h]
    · have hb : (name == n) = false := by simpa using h
      rw [hb, ih]
      exact ⟨.inr, fun hmem => hmem.resolve_left h⟩

/-- A name that is a local of a scope is a local of a frame that fits it. -/
theorem Fits.exists_local? (h : f.Fits s) {name : String} (hl : s.isLocal name = true) :
    ∃ v, f.local? name = some v ∧ v.kind ≠ .slice := by
  have hsome : ∃ v, f.local? name = some v := by
    apply Option.isSome_iff_exists.mp
    rw [local?, Option.isSome_or, Bool.or_eq_true]
    rcases Bool.or_eq_true_iff.mp hl with hl | hl
    · refine .inl (lookup_isSome_iff.mpr ?_)
      rw [h.inner]
      exact List.contains_iff_mem.mp hl
    · refine .inr ?_
      obtain ⟨names, hnames, hmem⟩ := List.any_eq_true.mp hl
      rw [← h.outer] at hnames
      obtain ⟨locals, hlocals, rfl⟩ := List.mem_map.mp hnames
      rw [List.findSome?_isSome_iff]
      exact ⟨locals, hlocals, lookup_isSome_iff.mpr (List.contains_iff_mem.mp hmem)⟩
  obtain ⟨v, hv⟩ := hsome
  obtain ⟨locals, hlocals, hmem⟩ := mem_of_local? hv
  exact ⟨v, hv, h.noSlice locals hlocals _ hmem⟩

/-- Setting a local in the blocks around keeps their names. -/
theorem of_setOuter_eq_some {name : String} {v : Value} {outer outer' : List (List (String × Value))}
    (h : setOuter name v outer = some outer') :
    outer'.map (·.map (·.1)) = outer.map (·.map (·.1)) ∧
      ∀ locals ∈ outer', ∀ e ∈ locals, (∃ old ∈ outer, e ∈ old) ∨ e.2 = v := by
  -- the first block with the name is changed, and those before and after it are not
  induction outer generalizing outer' with
  | nil => exact nomatch h
  | cons locals outer ih =>
    rw [setOuter] at h
    split at h
    · next changed hchanged =>
      obtain rfl := Option.some.inj h
      obtain ⟨hnames, hvalues⟩ := Record.of_setFirst_eq_some hchanged
      refine ⟨by rw [List.map_cons, List.map_cons, hnames], fun l hl e he => ?_⟩
      rcases List.mem_cons.mp hl with rfl | hl
      · exact (hvalues e he).imp_left fun hmem => ⟨locals, List.mem_cons_self, hmem⟩
      · exact .inl ⟨l, List.mem_cons_of_mem _ hl, he⟩
    · obtain ⟨rest, hrest, rfl⟩ := Option.map_eq_some_iff.mp h
      obtain ⟨hnames, hvalues⟩ := ih hrest
      refine ⟨by rw [List.map_cons, List.map_cons, hnames], fun l hl e he => ?_⟩
      rcases List.mem_cons.mp hl with rfl | hl
      · exact .inl ⟨l, List.mem_cons_self, he⟩
      · refine (hvalues l hl e he).imp_left ?_
        rintro ⟨old, hold, hmem⟩
        exact ⟨old, List.mem_cons_of_mem _ hold, hmem⟩

/-- A local of the blocks around can be set. -/
theorem isSome_setOuter {name : String} {v : Value} {outer : List (List (String × Value))} :
    (setOuter name v outer).isSome = true ↔ ∃ locals ∈ outer, name ∈ locals.map (·.1) := by
  induction outer with
  | nil => exact ⟨nofun, fun ⟨_, h, _⟩ => (nomatch h)⟩
  | cons locals outer ih =>
    rw [setOuter]
    have hfirst : (Record.setFirst name v locals).isSome = true ↔ _ := Record.isSome_setFirst
    cases h : Record.setFirst name v locals with
    | some changed =>
      rw [h] at hfirst
      exact ⟨fun _ => ⟨locals, List.mem_cons_self, hfirst.mp rfl⟩, fun _ => rfl⟩
    | none =>
      rw [h] at hfirst
      show (Option.map _ _).isSome = true ↔ _
      rw [Option.isSome_map, ih]
      constructor
      · rintro ⟨l, hl, hmem⟩
        exact ⟨l, List.mem_cons_of_mem _ hl, hmem⟩
      · rintro ⟨l, hl, hmem⟩
        rcases List.mem_cons.mp hl with rfl | hl
        · exact nomatch hfirst.mpr hmem
        · exact ⟨l, hl, hmem⟩

/-- Setting a local keeps a frame fitting. -/
theorem Fits.of_setLocal? (h : f.Fits s) {name : String} {v : Value} (hv : v.kind ≠ .slice)
    {f' : Frame} (hset : f.setLocal? name v = some f') : f'.Fits s := by
  rcases setLocal?_eq_some_iff.mp hset with ⟨inner, hinner, rfl⟩ | ⟨-, outer, houter, rfl⟩
  · obtain ⟨hnames, hvalues⟩ := Record.of_setFirst_eq_some hinner
    refine ⟨hnames.trans h.inner, h.outer, fun locals hlocals e he => ?_, h.state⟩
    rcases List.mem_cons.mp hlocals with rfl | hlocals
    · rcases hvalues e he with he | he
      · exact h.noSlice _ List.mem_cons_self e he
      · exact he ▸ hv
    · exact h.noSlice _ (List.mem_cons_of_mem _ hlocals) e he
  · obtain ⟨hnames, hvalues⟩ := of_setOuter_eq_some houter
    refine ⟨h.inner, hnames.trans h.outer, fun locals hlocals e he => ?_, h.state⟩
    rcases List.mem_cons.mp hlocals with rfl | hlocals
    · exact h.noSlice _ List.mem_cons_self e he
    · rcases hvalues locals hlocals e he with ⟨old, hold, he⟩ | he
      · exact h.noSlice old (List.mem_cons_of_mem _ hold) e he
      · exact he ▸ hv

/-- A local of a scope can be set in a frame that fits it. -/
theorem Fits.exists_setLocal? (h : f.Fits s) {name : String} (hl : s.isLocal name = true)
    (v : Value) : ∃ f', f.setLocal? name v = some f' := by
  simp only [setLocal?_eq_some_iff]
  cases hinner : Record.setFirst name v f.inner with
  | some inner => exact ⟨_, .inl ⟨inner, rfl, rfl⟩⟩
  | none =>
    have hnot : name ∉ f.inner.map (·.1) := fun hmem => by
      rw [← Record.isSome_setFirst (v := v), hinner] at hmem
      exact nomatch hmem
    have houter : (setOuter name v f.outer).isSome = true := by
      rw [isSome_setOuter]
      rcases Bool.or_eq_true_iff.mp hl with hl | hl
      · rw [h.inner] at hnot
        exact absurd (List.contains_iff_mem.mp hl) hnot
      · obtain ⟨names, hnames, hmem⟩ := List.any_eq_true.mp hl
        rw [← h.outer] at hnames
        obtain ⟨locals, hlocals, rfl⟩ := List.mem_map.mp hnames
        exact ⟨locals, hlocals, List.contains_iff_mem.mp hmem⟩
    obtain ⟨outer, houter⟩ := Option.isSome_iff_exists.mp houter
    exact ⟨_, .inr ⟨rfl, outer, houter, rfl⟩⟩

/-! ### The state -/

/-- Setting a field of the state to a value of its kind keeps a frame fitting. -/
theorem Fits.setField (h : f.Fits s) {name : String} {field : Field}
    (hf : Scope.field? s.state name = some field) {v : Value}
    (hv : v.kind = Value.Kind.ofType field.type) :
    Fits s { f with state := (f.state.set? name v).getD f.state } := by
  obtain ⟨old, hold, -⟩ := h.state _ _ hf
  obtain ⟨state, hset⟩ := Record.exists_set?_of_get? hold v
  refine ⟨h.inner, h.outer, h.noSlice, ?_⟩
  show ((f.state.set? name v).getD f.state).Holds s.state
  rw [hset]
  exact h.state.set hf hv hset

end Frame
end Simulator
end MessageRouter
