import MessageRouter.Proofs.Code.Run
/-!
# `Proofs.Code.Variables` — statements run one after the other, and variables stay where they were left

* `exec_append`: what runs after other statements.
* `Env.lookup_setIn`, `Env.exists_setIn`: a change in one block.
* `Env.get?_declare`, `Env.get?_push`: declarations and new blocks.
* `Env.exists_set`: an assignment to a variable that is there changes this variable and no other.
-/
namespace MessageRouter
namespace Code

/-! ## Statements -/

/-- What runs after other statements. -/
theorem exec_append (lib : Library) (ss tt : List Stmt) (env : Env) :
    exec lib (ss ++ tt) env =
      exec lib ss env >>= fun
        | .next env => exec lib tt env
        | .returned v => .ok (.returned v) := by
  induction ss generalizing env with
  | nil => rfl
  | cons s rest ih =>
    rw [List.cons_append, exec, exec, bind_assoc]
    refine bind_congr fun flow => ?_
    cases flow with
    | next env => exact ih env
    | returned v => rfl

/-- Statements that go on, and then others. -/
theorem exec_append_of_next {lib : Library} {ss tt : List Stmt} {env env' : Env}
    (h : exec lib ss env = .ok (.next env')) : exec lib (ss ++ tt) env = exec lib tt env' := by
  rw [exec_append, h]
  rfl

theorem exec_singleton (lib : Library) (s : Stmt) (env : Env) :
    exec lib [s] env = execStmt lib s env := by
  rw [exec]
  cases execStmt lib s env with
  | error e => rfl
  | ok flow => cases flow <;> rfl

namespace Env

/-! ## Blocks -/

/-- A changed variable is the one of its name, and the others stay what they were. -/
theorem lookup_setIn {block block' : Block} {n : String} {w : Val} (h : setIn n w block = some block')
    (other : String) : block'.lookup other = if other = n then some w else block.lookup other := by
  induction block generalizing block' with
  | nil => exact nomatch h
  | cons e rest ih =>
    obtain ⟨m, x⟩ := e
    rw [setIn] at h
    split at h
    · next hm =>
      obtain rfl := Option.some.inj h
      rw [List.lookup_cons, List.lookup_cons]
      by_cases ho : other = n
      · simp [ho, hm]
      · have hb : (other == m) = false := by simpa [hm] using ho
        rw [hb, if_neg ho]
    · next hm =>
      obtain ⟨rest', hrest, rfl⟩ := Option.map_eq_some_iff.mp h
      rw [List.lookup_cons, List.lookup_cons]
      by_cases ho : other = m
      · have hne : other ≠ n := fun heq => hm (ho ▸ heq)
        simp [ho, fun heq : m = n => hm heq]
      · have hb : (other == m) = false := by simpa using ho
        rw [hb]
        exact ih hrest

/-- A variable that is found can be changed. -/
theorem exists_setIn {block : Block} {n : String} {w : Val} (h : block.lookup n = some w) (x : Val) :
    ∃ block', setIn n x block = some block' := by
  induction block with
  | nil => exact nomatch h
  | cons e rest ih =>
    obtain ⟨m, y⟩ := e
    rw [setIn]
    by_cases hm : m = n
    · exact ⟨_, if_pos hm⟩
    · have hb : (n == m) = false := by simpa using fun heq : n = m => hm heq.symm
      rw [List.lookup_cons, hb] at h
      obtain ⟨rest', hrest⟩ := ih h
      exact ⟨(m, y) :: rest', by rw [if_neg hm, hrest]; rfl⟩

/-- A variable that is not there cannot be changed. -/
theorem setIn_eq_none {block : Block} {n : String} (h : block.lookup n = none) (x : Val) :
    setIn n x block = none := by
  induction block with
  | nil => rfl
  | cons e rest ih =>
    obtain ⟨m, y⟩ := e
    rw [List.lookup_cons] at h
    rw [setIn]
    by_cases hm : m = n
    · subst hm
      rw [beq_self_eq_true] at h
      exact nomatch h
    · have hb : (n == m) = false := by simpa using fun heq : n = m => hm heq.symm
      rw [hb] at h
      rw [if_neg hm, ih h]
      rfl

/-! ## Environments -/

/-- The innermost block is searched first. -/
theorem get?_cons (block : Block) (env : Env) (n : String) :
    get? (block :: env) n = (block.lookup n).or (get? env n) := by
  rw [get?, List.findSome?_cons]
  cases block.lookup n <;> rfl

@[simp] theorem get?_nil (n : String) : get? [] n = none := rfl

/-- A new block hides nothing. -/
@[simp] theorem get?_push (env : Env) (n : String) : get? ([] :: env) n = get? env n := by
  rw [get?_cons, List.lookup_nil, Option.none_or]

/-- A declared variable is found first. -/
theorem get?_declare (env : Env) (n : String) (v : Val) (other : String) :
    (env.declare n v).get? other = if other = n then some v else env.get? other := by
  have hblock (block : Block) : List.lookup other ((n, v) :: block) =
      if other = n then some v else block.lookup other := by
    rw [List.lookup_cons]
    by_cases ho : other = n
    · simp [ho]
    · have hb : (other == n) = false := by simpa using ho
      rw [hb, if_neg ho]
  cases env with
  | nil =>
    rw [declare, get?_cons, hblock]
    split <;> rfl
  | cons block env =>
    rw [declare, get?_cons, hblock, get?_cons]
    split <;> rfl

theorem set?_cons_of_eq_some {n : String} {w : Val} {block block' : Block} {env : Env}
    (h : setIn n w block = some block') : set? n w (block :: env) = some (block' :: env) := by
  rw [set?, h]

theorem set?_cons_of_eq_none {n : String} {w : Val} {block : Block} {env : Env}
    (h : setIn n w block = none) : set? n w (block :: env) = (set? n w env).map (block :: ·) := by
  rw [set?, h]

/-- A variable that is there can be changed, and the others stay what they were. -/
theorem exists_set {env : Env} {n : String} {w : Val} (h : env.get? n = some w) (v : Val) :
    ∃ env', env.set n v = .ok env' ∧
      ∀ other, env'.get? other = if other = n then some v else env.get? other := by
  suffices hset : ∃ env', env.set? n v = some env' ∧
      ∀ other, env'.get? other = if other = n then some v else env.get? other by
    obtain ⟨env', hset, hget⟩ := hset
    exact ⟨env', by rw [set, hset], hget⟩
  -- the innermost block that has the variable is changed, so the blocks are gone through in order
  induction env with
  | nil => exact nomatch h
  | cons block env ih =>
    rw [get?_cons] at h
    cases hblock : block.lookup n with
    | some x =>
      obtain ⟨block', hset⟩ := exists_setIn hblock v
      refine ⟨block' :: env, set?_cons_of_eq_some hset, fun other => ?_⟩
      rw [get?_cons, get?_cons, lookup_setIn hset]
      split <;> rfl
    | none =>
      rw [hblock, Option.none_or] at h
      obtain ⟨env', hset, hget⟩ := ih h
      have hnone : setIn n v block = none := setIn_eq_none hblock v
      refine ⟨block :: env', by rw [set?_cons_of_eq_none hnone, hset]; rfl, fun other => ?_⟩
      rw [get?_cons, get?_cons, hget]
      by_cases ho : other = n
      · subst ho
        rw [hblock, if_pos rfl, if_pos rfl]
        rfl
      · rw [if_neg ho, if_neg ho]

end Env
end Code
end MessageRouter
