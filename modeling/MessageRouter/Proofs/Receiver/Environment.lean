import MessageRouter.Proofs.Body.Conformance
import MessageRouter.Proofs.Code.Name
import MessageRouter.Proofs.Code.Variables
import MessageRouter.Proofs.Receiver.Value
/-!
# `Proofs.Receiver.Environment` — the locals of a frame as variables

* `Env.ofLocals`: the locals of each open block on top of the variables of the function.
* `Env.get?_local`, `Env.get?_base`: locals and other variables are found.
* `Env.set?_local`, `Env.set?_base`: they are changed where they are found.
-/
namespace MessageRouter

open Func (Name.var)

namespace Code

variable {name : String} {v : Value} {locals inner : List (String × Value)}
  {outer : List (List (String × Value))} {base : Block}

/-! ## Blocks -/

namespace Block

/-- The locals of a block as variables. -/
def ofLocals (locals : List (String × Value)) : Block :=
  locals.map fun e => (Name.var e.1, Val.ofValue e.2)

/-- A local is found under the name of its variable. -/
theorem lookup_ofLocals (locals : List (String × Value)) (name : String) :
    (ofLocals locals).lookup (Name.var name) = (locals.lookup name).map Val.ofValue := by
  induction locals with
  | nil => rfl
  | cons e rest ih =>
    obtain ⟨n, w⟩ := e
    rw [ofLocals, List.map_cons, List.lookup_cons, List.lookup_cons]
    by_cases h : name = n
    · simp [h]
    · have hvar : Name.var name ≠ Name.var n := fun heq => h (Func.Name.var_inj heq)
      have hb : (name == n) = false := by simpa using h
      have hbvar : (Name.var name == Name.var n) = false := by simpa using hvar
      rw [hb, hbvar]
      exact ih

/-- What is no local is not found among them. -/
theorem lookup_ofLocals_of_ne {n : String} (h : ∀ e ∈ locals, Name.var e.1 ≠ n) :
    (ofLocals locals).lookup n = none := by
  rw [List.lookup_eq_none_iff]
  intro e he
  obtain ⟨x, hx, rfl⟩ := List.mem_map.mp he
  have hne := h x hx
  simpa using fun heq => hne heq.symm

end Block

namespace Env

/-! ### Changing a block -/

/-- A change of another variable is made below the locals. -/
theorem setIn_ofLocals_of_ne {n : String} (h : ∀ e ∈ locals, Name.var e.1 ≠ n) (w : Val)
    (base : Block) :
    setIn n w (Block.ofLocals locals ++ base) = (setIn n w base).map (Block.ofLocals locals ++ ·) := by
  induction locals with
  | nil => simp [Block.ofLocals]
  | cons e rest ih =>
    show setIn _ _ ((Name.var e.1, Val.ofValue e.2) :: (Block.ofLocals rest ++ base)) = _
    rw [setIn, if_neg (h e List.mem_cons_self), ih fun x hx => h x (List.mem_cons_of_mem _ hx),
      Option.map_map]
    rfl

/-- A change among locals is made on top of whatever is below them. -/
theorem setIn_ofLocals_of_eq_some {locals' : List (String × Value)}
    (h : Record.setFirst name v locals = some locals') (base : Block) :
    setIn (Name.var name) (Val.ofValue v) (Block.ofLocals locals ++ base) =
      some (Block.ofLocals locals' ++ base) := by
  obtain ⟨front, old, back, rfl, hfront, rfl⟩ := Record.setFirst_eq_some_iff.mp h
  have hsplit (w : Value) : Block.ofLocals (front ++ (name, w) :: back) ++ base =
      Block.ofLocals front ++ (Name.var name, Val.ofValue w) :: (Block.ofLocals back ++ base) := by
    simp [Block.ofLocals]
  have hbefore : ∀ e ∈ front, Name.var e.1 ≠ Name.var name :=
    fun e he heq => hfront e he (Func.Name.var_inj heq)
  rw [hsplit, hsplit, setIn_ofLocals_of_ne hbefore, setIn, if_pos rfl]
  rfl

/-- No local of the name is there to be changed. -/
theorem ne_of_setFirst_eq_none (h : Record.setFirst name v locals = none) :
    ∀ e ∈ locals, Name.var e.1 ≠ Name.var name := by
  intro e he heq
  have hmem : name ∈ locals.map (·.1) := by
    rw [← Func.Name.var_inj heq]
    exact List.mem_map_of_mem he
  rw [← Record.isSome_setFirst (v := v), h] at hmem
  exact nomatch hmem

/-! ## Frames -/

/-- The locals of each open block on top of the variables of the function. -/
def ofLocals (base : Block) (inner : List (String × Value)) : List (List (String × Value)) → Env
  | [] => [Block.ofLocals inner ++ base]
  | next :: outer => Block.ofLocals inner :: ofLocals base next outer

/-- A local is found as the innermost and latest variable of its name. -/
theorem get?_local (h : (inner.lookup name).or (outer.findSome? (·.lookup name)) = some v) :
    get? (ofLocals base inner outer) (Name.var name) = some (Val.ofValue v) := by
  induction outer generalizing inner with
  | nil =>
    have hinner : inner.lookup name = some v := by simpa using h
    rw [ofLocals, get?_cons, List.lookup_append, Block.lookup_ofLocals, hinner]
    rfl
  | cons next outer ih =>
    rw [ofLocals, get?_cons, Block.lookup_ofLocals]
    cases hinner : inner.lookup name with
    | some w =>
      rw [hinner] at h
      obtain rfl := Option.some.inj h
      rfl
    | none =>
      rw [hinner, Option.none_or, List.findSome?_cons] at h
      refine ih ?_
      cases hnext : next.lookup name with
      | some w | none =>
        rw [hnext] at h
        exact h

/-- What is no local is found among the variables of the function. -/
theorem get?_base {n : String} (h : ∀ locals ∈ inner :: outer, ∀ e ∈ locals, Name.var e.1 ≠ n) :
    get? (ofLocals base inner outer) n = base.lookup n := by
  induction outer generalizing inner with
  | nil =>
    rw [ofLocals, get?_cons, List.lookup_append,
      Block.lookup_ofLocals_of_ne (h inner List.mem_cons_self), Option.none_or, get?_nil, Option.or_none]
  | cons next outer ih =>
    rw [ofLocals, get?_cons, Block.lookup_ofLocals_of_ne (h inner List.mem_cons_self), Option.none_or]
    exact ih fun locals hlocals => h locals (List.mem_cons_of_mem _ hlocals)

/-- A variable that is no local is changed among the variables of the function. -/
theorem set?_base {n : String} {w : Val} {base' : Block}
    (h : ∀ locals ∈ inner :: outer, ∀ e ∈ locals, Name.var e.1 ≠ n) (hset : setIn n w base = some base') :
    set? n w (ofLocals base inner outer) = some (ofLocals base' inner outer) := by
  have hinner := setIn_ofLocals_of_ne (h inner List.mem_cons_self) w
  induction outer generalizing inner with
  | nil =>
    refine set?_cons_of_eq_some ?_
    rw [hinner, hset]
    rfl
  | cons next outer ih =>
    have hnone : setIn n w (Block.ofLocals inner) = none := by simpa [setIn] using hinner []
    have hrest : ∀ locals ∈ next :: outer, ∀ e ∈ locals, Name.var e.1 ≠ n :=
      fun locals hlocals => h locals (List.mem_cons_of_mem _ hlocals)
    rw [ofLocals, set?_cons_of_eq_none hnone,
      ih hrest (setIn_ofLocals_of_ne (hrest next List.mem_cons_self) w)]
    rfl

/-- A local of the blocks around is changed where it is found. -/
theorem set?_ofLocals_of_setOuter {outer' : List (List (String × Value))}
    (hinner : Record.setFirst name v inner = none)
    (houter : Simulator.Frame.setOuter name v outer = some outer') :
    set? (Name.var name) (Val.ofValue v) (ofLocals base inner outer) =
      some (ofLocals base inner outer') := by
  induction outer generalizing inner outer' with
  | nil => exact nomatch houter
  | cons next outer ih =>
    have hnone : setIn (Name.var name) (Val.ofValue v) (Block.ofLocals inner) = none := by
      simpa [setIn] using
        setIn_ofLocals_of_ne (ne_of_setFirst_eq_none hinner) (Val.ofValue v) []
    rw [ofLocals, set?_cons_of_eq_none hnone]
    rw [Simulator.Frame.setOuter] at houter
    split at houter
    · next next' hnext =>
      obtain rfl := Option.some.inj houter
      have hset := setIn_ofLocals_of_eq_some hnext
      -- the block of the fields lies under the last block of locals
      cases outer with
      | nil =>
        rw [ofLocals, set?_cons_of_eq_some (hset base)]
        rfl
      | cons after outer =>
        have hset' := hset []
        rw [List.append_nil, List.append_nil] at hset'
        rw [ofLocals, set?_cons_of_eq_some hset']
        rfl
    · next hnext =>
      obtain ⟨rest, hrest, rfl⟩ := Option.map_eq_some_iff.mp houter
      rw [ih hnext hrest]
      rfl

/-- A local is changed where it is found. -/
theorem set?_local {f f' : Simulator.Frame} (h : f.setLocal? name v = some f') :
    set? (Name.var name) (Val.ofValue v) (ofLocals base f.inner f.outer) =
        some (ofLocals base f'.inner f'.outer) ∧ f'.state = f.state := by
  rcases Simulator.Frame.setLocal?_eq_some_iff.mp h with ⟨inner', hinner, rfl⟩ | ⟨hinner, outer', houter, rfl⟩
  · refine ⟨?_, rfl⟩
    have hset := setIn_ofLocals_of_eq_some hinner
    cases houter : f.outer with
    | nil => exact set?_cons_of_eq_some (hset base)
    | cons next outer =>
      have hset' := hset []
      rw [List.append_nil, List.append_nil] at hset'
      exact set?_cons_of_eq_some hset'
  · exact ⟨set?_ofLocals_of_setOuter hinner houter, rfl⟩

theorem declare_ofLocals (base : Block) (inner : List (String × Value))
    (outer : List (List (String × Value))) (name : String) (v : Value) :
    declare (Name.var name) (Val.ofValue v) (ofLocals base inner outer) =
      ofLocals base ((name, v) :: inner) outer := by
  cases outer <;> rfl

end Env
end Code
end MessageRouter
