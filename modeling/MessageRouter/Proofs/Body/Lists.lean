import MessageRouter.Proofs.Body.Grammar
/-!
# `Proofs.Body.Lists` — how many lists of a body stand in one another

A body is a list of lists: each nested block takes one list for its statement and one for itself, and each
operator takes one.

* `Sexpr.nesting`, `bodyLists`: how many lists of an expression or of a body stand in one another.
* `nesting_withElses`: an else part that is left out does not count.
* `bodyLists_le`, `le_bodyLists`: bounds by the nesting of blocks and operands, which may be at most `maxBodyDepth`.
-/
namespace MessageRouter

/-! ## Lists -/

mutual

/-- How many lists of an expression stand in one another. -/
def Sexpr.nesting : Sexpr → Nat
  | .int _ | .word _ => 0
  | .list items => sexprsNesting items + 1

def sexprsNesting : List Sexpr → Nat
  | [] => 0
  | e :: rest => max e.nesting (sexprsNesting rest)

end

/-- How many lists of a body stand in one another, its own among them. -/
def bodyLists (body : List Stmt) : Nat := (Sexpr.list (printBody body)).nesting

theorem bodyLists_cons (s : Stmt) (rest : List Stmt) :
    bodyLists (s :: rest) = max (s.toSexpr.nesting + 1) (bodyLists rest) := by
  simp only [bodyLists, printBody, Sexpr.nesting, sexprsNesting]
  omega

mutual

theorem nesting_withElse (e : Sexpr) : e.withElse.nesting = e.nesting := by
  unfold Sexpr.withElse
  split
  · next cond thenItems =>
    have hthen := nesting_withElses thenItems
    simp only [Sexpr.nesting, sexprsNesting, hthen]
    omega
  · next cond thenItems elseItems =>
    have hthen := nesting_withElses thenItems
    have helse := nesting_withElses elseItems
    simp only [Sexpr.nesting, sexprsNesting, hthen, helse]
  · rfl
termination_by sizeOf e

/-- An else part that is left out is not nested deeper than the other part. -/
theorem nesting_withElses (items : List Sexpr) : sexprsNesting (withElses items) = sexprsNesting items := by
  unfold withElses
  split
  · rfl
  · next e rest =>
    rw [sexprsNesting, sexprsNesting, nesting_withElse e, nesting_withElses rest]
termination_by sizeOf items

end

/-- The lists of a body are those that it was read from. -/
theorem bodyLists_of_readBody {items : List Sexpr} {body : List Stmt} (h : readBody items = .ok body) :
    bodyLists body = (Sexpr.list items).nesting := by
  obtain ⟨-, hitems⟩ := readBody_eq_ok_iff.mp h
  rw [bodyLists, hitems, Sexpr.nesting, Sexpr.nesting, nesting_withElses]

/-! ## Bounds -/

/-- An operand that lies directly in its statement takes a list, and so does each operator within. -/
theorem Operand.nesting_toSexpr_le (x : Operand) : x.toSexpr.nesting ≤ x.nesting + 1 := by
  induction x with
  | int | bool | place | bits => exact Nat.le_of_ble_eq_true rfl
  | unary op x ih => cases op <;> simp only [Operand.toSexpr, Sexpr.nesting, sexprsNesting, Operand.nesting] <;> omega
  | binary op a b iha ihb =>
    simp only [Operand.toSexpr, Sexpr.nesting, sexprsNesting, Operand.nesting]
    omega

mutual

theorem Stmt.nesting_toSexpr_le (s : Stmt) : s.toSexpr.nesting ≤ 2 * s.nesting + 1 := by
  cases s with
  | declare name value | set target value =>
    have hvalue := value.nesting_toSexpr_le
    simp only [Stmt.toSexpr, Place.toSexpr, Sexpr.nesting, sexprsNesting, Stmt.nesting]
    omega
  | branch cond thenBody elseBody =>
    have hcond := cond.nesting_toSexpr_le
    have hthen := bodyLists_le thenBody
    have helse := bodyLists_le elseBody
    simp only [bodyLists, Sexpr.nesting] at hthen helse
    simp only [Stmt.toSexpr, Sexpr.nesting, sexprsNesting, Stmt.nesting]
    omega
  | throw | ret => exact Nat.le_of_ble_eq_true rfl

/-- Every nested block takes two lists at most, and every operator one. -/
theorem bodyLists_le (body : List Stmt) : bodyLists body ≤ 2 * bodyNesting body + 2 := by
  cases body with
  | nil => exact Nat.le_of_ble_eq_true rfl
  | cons s rest =>
    have hs := s.nesting_toSexpr_le
    have hrest := bodyLists_le rest
    rw [bodyLists_cons, bodyNesting]
    omega

end

mutual

/-- How deep the blocks of a statement are nested. -/
def Stmt.blockDepth : Stmt → Nat
  | .branch _ thenBody elseBody => max (bodyBlockDepth thenBody) (bodyBlockDepth elseBody) + 1
  | .declare .. | .set .. | .throw _ | .ret => 0

/-- How deep the blocks of a body are nested in it. -/
def bodyBlockDepth : List Stmt → Nat
  | [] => 0
  | s :: rest => max s.blockDepth (bodyBlockDepth rest)

end

mutual

theorem Stmt.le_nesting_toSexpr (s : Stmt) : 2 * s.blockDepth ≤ s.toSexpr.nesting := by
  cases s with
  | declare | set | throw | ret => exact Nat.zero_le _
  | branch cond thenBody elseBody =>
    have hthen := le_bodyLists thenBody
    have helse := le_bodyLists elseBody
    simp only [bodyLists, Sexpr.nesting] at hthen helse
    simp only [Stmt.toSexpr, Sexpr.nesting, sexprsNesting, Stmt.blockDepth]
    omega

/-- Every nested block takes two lists. -/
theorem le_bodyLists (body : List Stmt) : 2 * bodyBlockDepth body + 1 ≤ bodyLists body := by
  cases body with
  | nil => exact Nat.le_refl 1
  | cons s rest =>
    have hs := s.le_nesting_toSexpr
    have hrest := le_bodyLists rest
    rw [bodyLists_cons, bodyBlockDepth]
    omega

end

end MessageRouter
