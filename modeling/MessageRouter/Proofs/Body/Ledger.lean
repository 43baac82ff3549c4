import MessageRouter.Proofs.Body.Conformance
import MessageRouter.Proofs.Body.Scoping
/-!
# `Proofs.Body.Ledger` — what a run stored in its locals

* `Ledger`: the locals that can be seen, each with a variable of its own, and all that was stored in the variables.
* `Ledger.current?`: what was last stored in the innermost and latest local of a name.
* `Call.recordStmt`, `Call.record`: the ledger after a statement and after a body, from the values they compute.
* `Ledger.Describes`: a frame holds for every local what its variable was last given.
* `Ledger.Describes.of_execStmt`, `of_exec`: a run of what was checked keeps its ledger describing its frame.
-/
namespace MessageRouter

/-- The locals of all open blocks, the innermost and latest first. -/
def Scope.locals (s : Scope) : List String := s.inner ++ s.outer.flatten

theorem Scope.isLocal_iff {s : Scope} {name : String} : s.isLocal name = true ↔ name ∈ s.locals := by
  rw [isLocal, locals, Bool.or_eq_true, List.contains_iff_mem, List.any_eq_true, List.mem_append, List.mem_flatten]
  simp only [List.contains_iff_mem]

namespace Simulator

/-- The locals of all open blocks with their values, the innermost and latest first. -/
def Frame.locals (f : Frame) : List (String × Value) := f.inner ++ f.outer.flatten

/-! ## Ledgers -/

/-- What a run did to its locals. Every declaration makes a new variable, also under a name that is there already. -/
structure Ledger where
  /-- The locals that can be seen, the innermost and latest first, each with the number of its variable. -/
  visible : List (String × Nat)
  /-- All that was stored so far, the latest first, each value with the number of the variable it was given to. -/
  stored : List (Nat × Value)

namespace Ledger

def empty : Ledger := ⟨[], []⟩

/-- A new variable under a name. -/
def declare (l : Ledger) (name : String) (v : Value) : Ledger where
  visible := (name, l.stored.length) :: l.visible
  stored := (l.stored.length, v) :: l.stored

/-- A value for the variable that a name stands for. -/
def store (l : Ledger) (name : String) (v : Value) : Ledger :=
  match l.visible.lookup name with
  | some n => { l with stored := (n, v) :: l.stored }
  | none => l

/-- The end of a block: what could be seen before it can be seen again, and what was stored remains so. -/
def close (l before : Ledger) : Ledger := { l with visible := before.visible }

/-- What was last stored in the innermost and latest local of a name. -/
def current? (l : Ledger) (name : String) : Option Value :=
  (l.visible.lookup name).bind fun n => l.stored.lookup n

end Ledger

namespace Call

mutual

/-- The ledger after a statement that starts in some frame. -/
def recordStmt (c : Call) (s : Stmt) (f : Frame) (l : Ledger) : Ledger :=
  match s with
  | .declare name value =>
    match c.eval f value with
    | .ok v => l.declare name v
    | .error _ => l
  | .set target value =>
    match c.eval f value with
    | .ok v => if target.root = Place.self then l else l.store target.root v
    | .error _ => l
  | .branch cond thenBody elseBody =>
    match c.eval f cond >>= truth with
    | .ok true => (c.record thenBody f.push l).close l
    | .ok false => (c.record elseBody f.push l).close l
    | .error _ => l
  | .throw _ | .ret => l

/-- The ledger after a body that starts in some frame. -/
def record (c : Call) (body : List Stmt) (f : Frame) (l : Ledger) : Ledger :=
  match body with
  | [] => l
  | s :: rest =>
    match c.execStmt s f with
    | .ok (.next, f') => c.record rest f' (c.recordStmt s f l)
    | .ok (.returned, _) | .error _ => c.recordStmt s f l

end

end Call

/-! ## Locals in one list -/

namespace Frame

variable {f f' : Frame} {name : String} {v : Value}

theorem lookup_flatten (name : String) (outer : List (List (String × Value))) :
    outer.findSome? (·.lookup name) = outer.flatten.lookup name := by
  induction outer with
  | nil => rfl
  | cons locals outer ih =>
    rw [List.flatten_cons, List.lookup_append, ← ih, List.findSome?_cons]
    cases locals.lookup name <;> rfl

theorem local?_eq_lookup (f : Frame) (name : String) : f.local? name = f.locals.lookup name := by
  rw [local?, lookup_flatten, locals, List.lookup_append]

theorem setFirst_append {es es' : List (String × Value)} (h : Record.setFirst name v es = some es')
    (rest : List (String × Value)) : Record.setFirst name v (es ++ rest) = some (es' ++ rest) := by
  obtain ⟨front, old, back, rfl, hfront, rfl⟩ := Record.setFirst_eq_some_iff.mp h
  rw [List.append_assoc, List.append_assoc]
  exact Record.setFirst_append_cons hfront (back ++ rest)

theorem setFirst_append_of_none {es : List (String × Value)} (h : Record.setFirst name v es = none)
    (rest : List (String × Value)) :
    Record.setFirst name v (es ++ rest) = (Record.setFirst name v rest).map (es ++ ·) := by
  induction es with
  | nil => exact Option.map_id'.symm
  | cons e es ih =>
    obtain ⟨n, w⟩ := e
    rw [Record.setFirst] at h
    rw [List.cons_append, Record.setFirst]
    split at h
    · cases h
    · next hn =>
      rw [if_neg hn, ih (Option.map_eq_none_iff.mp h), Option.map_map]
      rfl

theorem setFirst_flatten {outer outer' : List (List (String × Value))} (h : setOuter name v outer = some outer') :
    Record.setFirst name v outer.flatten = some outer'.flatten := by
  induction outer generalizing outer' with
  | nil => exact nomatch h
  | cons locals outer ih =>
    rw [setOuter] at h
    split at h
    · next hlocals =>
      obtain rfl := Option.some.inj h
      exact setFirst_append hlocals outer.flatten
    · next hlocals =>
      obtain ⟨rest, hrest, rfl⟩ := Option.map_eq_some_iff.mp h
      rw [List.flatten_cons, setFirst_append_of_none hlocals, ih hrest]
      rfl

/-- A local that is set is the first of its name in the list of all. -/
theorem setFirst_locals (h : f.setLocal? name v = some f') : Record.setFirst name v f.locals = some f'.locals := by
  rcases setLocal?_eq_some_iff.mp h with ⟨inner, hinner, rfl⟩ | ⟨hinner, outer, houter, rfl⟩
  · exact setFirst_append hinner f.outer.flatten
  · rw [locals, setFirst_append_of_none hinner, setFirst_flatten houter]
    rfl

/-! ## Names -/

/-- A frame has the locals of a scope, block by block. -/
structure HasLocals (s : Scope) (f : Frame) : Prop where
  inner : f.inner.map (·.1) = s.inner
  outer : f.outer.map (·.map (·.1)) = s.outer

variable {s t : Scope}

theorem HasLocals.push (h : f.HasLocals s) : f.push.HasLocals s.push :=
  ⟨rfl, congrArg₂ List.cons h.inner h.outer⟩

theorem HasLocals.pop (h : f.HasLocals s) : f.pop.HasLocals s.pop := by
  obtain ⟨state, inner, outer⟩ := f
  obtain ⟨sstate, payload, sinner, souter⟩ := s
  obtain ⟨hinner, houter⟩ := h
  cases outer with
  | nil =>
    obtain rfl : [] = souter := houter
    exact ⟨hinner, rfl⟩
  | cons locals outer =>
    cases houter
    exact ⟨rfl, rfl⟩

theorem HasLocals.declare (h : f.HasLocals s) (ht : s.declare name = .ok t) (v : Value) :
    (f.declare name v).HasLocals t := by
  obtain ⟨-, -, rfl⟩ := Scope.declare_eq_ok_iff.mp ht
  exact ⟨congrArg (name :: ·) h.inner, h.outer⟩

theorem HasLocals.setLocal (h : f.HasLocals s) (hset : f.setLocal? name v = some f') : f'.HasLocals s := by
  rcases setLocal?_eq_some_iff.mp hset with ⟨inner, hinner, rfl⟩ | ⟨-, outer, houter, rfl⟩
  · exact ⟨(Record.of_setFirst_eq_some hinner).1.trans h.inner, h.outer⟩
  · exact ⟨h.inner, (of_setOuter_eq_some houter).1.trans h.outer⟩

theorem HasLocals.map_locals (h : f.HasLocals s) : f.locals.map (·.1) = s.locals := by
  rw [locals, Scope.locals, List.map_append, List.map_flatten, h.inner, h.outer]

end Frame

/-! ## What a ledger says of a frame -/

namespace Ledger

variable {l l' : Ledger} {name : String} {v : Value}

/-- Locals and their variables, each with the value that was last stored in its variable. -/
abbrev Lists (stored : List (Nat × Value)) (locals : List (String × Value)) (visible : List (String × Nat)) : Prop :=
  List.Forall₂ (fun e n => e.1 = n.1 ∧ stored.lookup n.2 = some e.2) locals visible

/-- A frame has the locals of a scope and holds for each what its variable was last given. No two locals share a
variable, and every variable is older than the next one to be made. -/
structure Describes (l : Ledger) (s : Scope) (f : Frame) : Prop extends f.HasLocals s where
  lists : Lists l.stored f.locals l.visible
  distinct : (l.visible.map (·.2)).Nodup
  old : ∀ n ∈ l.visible, n.2 < l.stored.length

section Lists

variable {stored : List (Nat × Value)} {locals : List (String × Value)} {visible : List (String × Nat)}

/-- The value of a local is the one that was last stored in its variable. -/
theorem Lists.lookup_eq (h : Lists stored locals visible) (name : String) :
    locals.lookup name = (visible.lookup name).bind fun n => stored.lookup n := by
  induction h with
  | nil => rfl
  | @cons e n locals visible hen _ ih =>
    obtain ⟨m, w⟩ := e
    obtain ⟨m', i⟩ := n
    obtain ⟨rfl, hstored⟩ := hen
    rw [List.lookup_cons, List.lookup_cons]
    cases name == m with
    | true => exact hstored.symm
    | false => exact ih

/-- What is stored in a variable is of no concern to the locals that have others. -/
theorem Lists.store_other {i : Nat} (h : Lists stored locals visible) (hi : i ∉ visible.map (·.2)) (v : Value) :
    Lists ((i, v) :: stored) locals visible := by
  induction h with
  | nil => exact .nil
  | @cons e n locals visible hen _ ih =>
    rw [List.map_cons, List.mem_cons, not_or] at hi
    have hne : (n.2 == i) = false := beq_false_of_ne fun hn => hi.1 hn.symm
    refine .cons ⟨hen.1, ?_⟩ (ih hi.2)
    rw [List.lookup_cons, hne]
    exact hen.2

/-- Setting the first local of a name stores a value in its variable and in no other. -/
theorem Lists.setFirst {locals' : List (String × Value)} (h : Lists stored locals visible)
    (hdistinct : (visible.map (·.2)).Nodup) (hset : Record.setFirst name v locals = some locals') :
    ∃ i, visible.lookup name = some i ∧ Lists ((i, v) :: stored) locals' visible := by
  induction h generalizing locals' with
  | nil => exact nomatch hset
  | @cons e n locals visible hen hrest ih =>
    obtain ⟨m, w⟩ := e
    obtain ⟨m', j⟩ := n
    obtain ⟨rfl, hstored⟩ := hen
    obtain ⟨hj, hdistinct⟩ := List.nodup_cons.mp hdistinct
    rw [Record.setFirst] at hset
    rw [List.lookup_cons]
    split at hset
    · next hm =>
      -- the first local has the name, and those behind it have other variables
      obtain rfl := Option.some.inj hset
      obtain rfl : m = name := hm
      rw [beq_self_eq_true]
      exact ⟨j, rfl, .cons ⟨rfl, List.lookup_cons_self⟩ (Lists.store_other hrest hj v)⟩
    · next hm =>
      obtain ⟨rest', hrest', rfl⟩ := Option.map_eq_some_iff.mp hset
      obtain ⟨i, hi, hlists⟩ := ih hdistinct hrest'
      have hmem : i ∈ visible.map (·.2) := by
        obtain ⟨before, after, rfl, -⟩ := List.lookup_eq_some_iff.mp hi
        simp
      have hne : (j == i) = false := beq_false_of_ne fun hji => hj (hji ▸ hmem)
      rw [beq_false_of_ne fun hn => hm hn.symm]
      refine ⟨i, hi, .cons ⟨rfl, ?_⟩ hlists⟩
      rw [List.lookup_cons, hne]
      exact hstored

end Lists

namespace Describes

variable {s t u : Scope} {f f' : Frame}

theorem ofState (fields : List Field) (payload : Payload) (state : Record) :
    empty.Describes (.ofReceiver fields payload) (.ofState state) where
  inner := rfl
  outer := rfl
  lists := .nil
  distinct := List.nodup_nil
  old := nofun

/-- Every local of the scope holds what was last stored in it. -/
theorem local?_eq (h : l.Describes s f) (name : String) : f.local? name = l.current? name :=
  (f.local?_eq_lookup name).trans (h.lists.lookup_eq name)

/-- Something was stored in every local of the scope. -/
theorem exists_current (h : l.Describes s f) (hname : s.isLocal name = true) :
    ∃ v, l.current? name = some v ∧ f.local? name = some v := by
  have hmem : name ∈ f.locals.map (·.1) := by
    rw [h.map_locals]
    exact Scope.isLocal_iff.mp hname
  obtain ⟨v, hv⟩ := Option.isSome_iff_exists.mp (Frame.lookup_isSome_iff.mpr hmem)
  rw [← f.local?_eq_lookup] at hv
  exact ⟨v, h.local?_eq name ▸ hv, hv⟩

theorem push (h : l.Describes s f) : l.Describes s.push f.push where
  toHasLocals := h.toHasLocals.push
  lists := h.lists
  distinct := h.distinct
  old := h.old

/-- The next variable to be made is that of no local. -/
theorem fresh (h : l.Describes s f) : l.stored.length ∉ l.visible.map (·.2) := by
  intro hmem
  obtain ⟨n, hn, hlength⟩ := List.mem_map.mp hmem
  exact absurd (h.old n hn) (by omega)

theorem declare (h : l.Describes s f) (ht : s.declare name = .ok t) (v : Value) :
    (l.declare name v).Describes t (f.declare name v) where
  toHasLocals := h.toHasLocals.declare ht v
  lists := .cons ⟨rfl, List.lookup_cons_self⟩ (h.lists.store_other h.fresh v)
  distinct := List.nodup_cons.mpr ⟨h.fresh, h.distinct⟩
  old := by
    intro n hn
    show n.2 < l.stored.length + 1
    rcases List.mem_cons.mp hn with rfl | hn
    · exact Nat.lt_succ_self _
    · exact Nat.lt_succ_of_lt (h.old n hn)

theorem store (h : l.Describes s f) (hset : f.setLocal? name v = some f') : (l.store name v).Describes s f' := by
  obtain ⟨i, hi, hlists⟩ := h.lists.setFirst h.distinct (Frame.setFirst_locals hset)
  unfold Ledger.store
  rw [hi]
  exact ⟨h.toHasLocals.setLocal hset, hlists, h.distinct, fun n hn => Nat.lt_succ_of_lt (h.old n hn)⟩

/-- At the end of a block the locals of those around it are seen again, with what the block stored in them. -/
theorem close (h : l.Describes s f) (h' : l'.Describes u f') (hwidens : s.push.Widens u)
    (hvisible : l.visible <:+ l'.visible) : (l'.close l).Describes s f'.pop := by
  -- the locals of the block stand in front of all others, in the frame and in the ledger
  obtain ⟨block, hblock⟩ := hvisible
  have hlocals : f'.pop.HasLocals s := hwidens.pop_eq ▸ h'.toHasLocals.pop
  have hsplit : f'.locals = f'.inner ++ f'.pop.locals := by
    have houter := h'.outer.trans hwidens.outer
    obtain ⟨state, inner, outer⟩ := f'
    cases outer with
    | nil => exact nomatch houter
    | cons locals outer => rfl
  have hlength : f'.inner.length = block.length := by
    have hall := h'.lists.length_eq
    have hbefore := h.lists.length_eq
    have hsame := congrArg List.length (hlocals.map_locals.trans h.map_locals.symm)
    rw [hsplit, ← hblock, List.length_append, List.length_append] at hall
    rw [List.length_map, List.length_map] at hsame
    omega
  refine ⟨hlocals, ?_, h.distinct, fun n hn => h'.old n (hblock ▸ List.mem_append_right block hn)⟩
  have hdrop := List.forall₂_drop f'.inner.length h'.lists
  rwa [hsplit, List.drop_left, hlength, ← hblock, List.drop_left] at hdrop

end Describes

/-! ## Runs -/

/-- What a run of what was checked between two scopes leaves in a ledger: it describes the frame in a scope with some
more locals, which is the second scope unless the run ended early, and it keeps what could be seen before. -/
def Follows (l l' : Ledger) (s t : Scope) (flow : Flow) (f' : Frame) : Prop :=
  ∃ u, s.Widens u ∧ l'.Describes u f' ∧ (flow = .next → u = t) ∧ l.visible <:+ l'.visible

namespace Follows

variable {s t u : Scope} {f f' : Frame} {flow : Flow}

theorem refl (h : l.Describes s f) (flow : Flow) : l.Follows l s s flow f :=
  ⟨s, .refl s, h, fun _ => rfl, List.suffix_refl _⟩

/-- What a run does inside of a block, seen from outside. -/
theorem close (h : l.Describes s f) (hblock : l.Follows l' s.push t flow f') :
    l.Follows (l'.close l) s s flow f'.pop := by
  obtain ⟨u, hwidens, hdescribes, -, hvisible⟩ := hblock
  exact ⟨s, .refl s, h.close hdescribes hwidens hvisible, fun _ => rfl, List.suffix_refl _⟩

end Follows

end Ledger

namespace Call

variable {c : Call}

theorem execStmt_branch_eq_ok {cond : Operand} {thenBody elseBody : List Stmt} {f f' : Frame} {flow : Flow}
    (h : c.execStmt (.branch cond thenBody elseBody) f = .ok (flow, f')) :
    ∃ b f'', (c.eval f cond >>= truth) = .ok b ∧
      c.exec (if b then thenBody else elseBody) f.push = .ok (flow, f'') ∧ f' = f''.pop := by
  obtain ⟨v, hv, h⟩ := Fallible.bind_eq_ok_iff.mp h
  obtain ⟨b, hb, h⟩ := Fallible.bind_eq_ok_iff.mp h
  refine ⟨b, ?_⟩
  cases b with
  | true | false =>
    obtain ⟨⟨flow', f''⟩, hexec, h⟩ := Fallible.bind_eq_ok_iff.mp h
    obtain ⟨rfl, rfl⟩ := Prod.mk.inj (Except.ok.inj h)
    exact ⟨f'', Fallible.bind_eq_ok_iff.mpr ⟨v, hv, hb⟩, hexec, rfl⟩

end Call

namespace Ledger

variable {c : Call} {l : Ledger}

/-- What is stored in a place of the state changes no local. -/
theorem Describes.of_store {s : Scope} {f f' : Frame} {target : Place} {v : Value} (h : l.Describes s f)
    (hstore : c.store f target v = .ok f') :
    (if target.root = Place.self then l else l.store target.root v).Describes s f' := by
  unfold Call.store at hstore
  by_cases hself : target.root = Place.self
  · rw [if_pos hself] at hstore ⊢
    unfold Call.storeState at hstore
    split at hstore
    · exact nomatch hstore
    · split at hstore
      · obtain rfl := Except.ok.inj hstore
        exact ⟨⟨h.inner, h.outer⟩, h.lists, h.distinct, h.old⟩
      · exact nomatch hstore
  · rw [if_neg hself] at hstore ⊢
    split at hstore
    · next hset =>
      obtain rfl := Except.ok.inj hstore
      exact h.store hset
    · exact nomatch hstore

theorem visible_store (l : Ledger) (name : String) (v : Value) : (l.store name v).visible = l.visible := by
  unfold store
  split <;> rfl

mutual

/-- A run of a checked statement keeps the ledger describing the frame. -/
theorem Describes.of_execStmt {l : Ledger} {s t : Scope} {f f' : Frame} {flow : Flow} (st : Stmt)
    (h : l.Describes s f) (hcheck : checkStmt st s = .ok () t) (hexec : c.execStmt st f = .ok (flow, f')) :
    l.Follows (c.recordStmt st f l) s t flow f' := by
  cases st with
  | declare name value =>
    obtain ⟨v, hv, hexec⟩ := Fallible.bind_eq_ok_iff.mp hexec
    obtain ⟨rfl, rfl⟩ := Prod.mk.inj (Except.ok.inj hexec)
    have ht := (checkStmt_declare hcheck).2
    rw [Call.recordStmt, hv]
    exact ⟨t, .of_declare ht, h.declare ht v, fun _ => rfl, List.suffix_cons _ _⟩
  | set target value =>
    obtain ⟨v, hv, hexec⟩ := Fallible.bind_eq_ok_iff.mp hexec
    obtain ⟨f'', hstore, hexec⟩ := Fallible.bind_eq_ok_iff.mp hexec
    obtain ⟨rfl, rfl⟩ := Prod.mk.inj (Except.ok.inj hexec)
    obtain ⟨-, -, rfl⟩ := checkStmt_set hcheck
    -- an assignment declares nothing, so what can be seen stays
    have hvisible : (if target.root = Place.self then l else l.store target.root v).visible = l.visible := by
      split
      · rfl
      · exact visible_store l target.root v
    rw [Call.recordStmt, hv]
    exact ⟨t, .refl t, h.of_store hstore, fun _ => rfl, hvisible ▸ List.suffix_refl _⟩
  | branch cond thenBody elseBody =>
    obtain ⟨-, ⟨u, hthen⟩, ⟨u', helse⟩, rfl⟩ := checkStmt_branch hcheck
    obtain ⟨b, f'', hb, hexec, rfl⟩ := Call.execStmt_branch_eq_ok hexec
    rw [Call.recordStmt, hb]
    cases b with
    | true => exact (Describes.of_exec thenBody h.push hthen hexec).close h
    | false => exact (Describes.of_exec elseBody h.push helse hexec).close h
  | throw code => exact nomatch hexec
  | ret =>
    obtain ⟨rfl, rfl⟩ := Prod.mk.inj (Except.ok.inj hexec)
    injection hcheck with _ ht
    exact ht ▸ Follows.refl h .returned

/-- A run of a checked body keeps the ledger describing the frame. -/
theorem Describes.of_exec {l : Ledger} {s t : Scope} {f f' : Frame} {flow : Flow} (body : List Stmt)
    (h : l.Describes s f) (hcheck : checkBody body s = .ok () t) (hexec : c.exec body f = .ok (flow, f')) :
    l.Follows (c.record body f l) s t flow f' := by
  cases body with
  | nil =>
    obtain ⟨rfl, rfl⟩ := Prod.mk.inj (Except.ok.inj hexec)
    injection hcheck with _ ht
    exact ht ▸ Follows.refl h .next
  | cons st rest =>
    obtain ⟨u, hst, hrest⟩ := checkBody_cons hcheck
    obtain ⟨⟨flow', f''⟩, hfirst, hexec⟩ := Fallible.bind_eq_ok_iff.mp hexec
    obtain ⟨w, hwidens, hdescribes, hnext, hvisible⟩ := Describes.of_execStmt st h hst hfirst
    -- after a return the rest is not run, and the scope is the one in which the run ended
    rw [Call.record, hfirst]
    cases flow' with
    | returned =>
      obtain ⟨rfl, rfl⟩ := Prod.mk.inj (Except.ok.inj hexec)
      exact ⟨w, hwidens, hdescribes, nofun, hvisible⟩
    | next =>
      obtain rfl := hnext rfl
      obtain ⟨w', hwidens', hdescribes', hnext', hvisible'⟩ := Describes.of_exec rest hdescribes hrest hexec
      exact ⟨w', hwidens.trans hwidens', hdescribes', hnext', hvisible.trans hvisible'⟩

end

end Ledger
end Simulator
end MessageRouter
