import MessageRouter.Body.Operand
import MessageRouter.Proofs.Code.Token
/-!
# `Proofs.Code.Grouping` — brackets in generated text

* `depth`: how many brackets are open after some tokens.
* `Balanced`: every bracket is closed, and none before it was opened.
* `depth_pos_of_prefix_round`: between two brackets that belong together one of them is open all the time.
* `IsSealed`: operators stand inside brackets only, so that nothing from outside can take an operand of theirs.
* `IsSealed.split`: tokens can be divided at an operator between two sealed parts and nowhere else.
-/
namespace MessageRouter
namespace Code

/-! ## Depth -/

/-- What a token opens or closes. -/
def Token.weight (t : Token) : Int :=
  if t = .mark '(' then 1 else if t = .mark ')' then -1 else 0

/-- How many brackets are open after some tokens. -/
def depth : List Token → Int
  | [] => 0
  | t :: ts => t.weight + depth ts

@[simp] theorem depth_nil : depth [] = 0 := rfl

@[simp] theorem depth_cons (t : Token) (ts : List Token) : depth (t :: ts) = t.weight + depth ts := rfl

@[simp] theorem depth_append (ts us : List Token) : depth (ts ++ us) = depth ts + depth us := by
  induction ts with
  | nil => simp
  | cons t ts ih => simp [ih, Int.add_assoc]

@[simp] theorem weight_open : (Token.mark '(').weight = 1 := rfl

/-! ## Balanced tokens -/

/-- Every bracket is closed, and none before it was opened. -/
structure Balanced (ts : List Token) : Prop where
  closed : depth ts = 0
  opened : ∀ p, p <+: ts → 0 ≤ depth p

/-- Some tokens between two brackets. -/
def round (ts : List Token) : List Token := .mark '(' :: (ts ++ [.mark ')'])

theorem round_inj {ts us : List Token} (h : round ts = round us) : ts = us :=
  List.append_cancel_right (List.cons.inj h).2

/-- A part of tokens that are put together is a part of the first ones or goes on into the others. -/
theorem prefix_append_cases {p ts us : List Token} (h : p <+: ts ++ us) :
    p <+: ts ∨ ∃ q, q <+: us ∧ p = ts ++ q := by
  rcases List.prefix_or_prefix_of_prefix h (List.prefix_append ts us) with h' | ⟨q, rfl⟩
  · exact .inl h'
  · exact .inr ⟨q, (List.prefix_append_right_inj ts).mp h, rfl⟩

namespace Balanced

variable {ts us : List Token}

theorem nil : Balanced [] :=
  ⟨rfl, fun p hp => by rw [List.prefix_nil.mp hp]; exact Int.le_refl 0⟩

theorem append (h : Balanced ts) (h' : Balanced us) : Balanced (ts ++ us) := by
  refine ⟨by rw [depth_append, h.closed, h'.closed]; rfl, fun p hp => ?_⟩
  rcases prefix_append_cases hp with hp | ⟨q, hq, rfl⟩
  · exact h.opened p hp
  · rw [depth_append, h.closed, Int.zero_add]
    exact h'.opened q hq

/-- A token that is no bracket changes nothing. -/
theorem cons {t : Token} (ht : t.weight = 0) (h : Balanced ts) : Balanced (t :: ts) := by
  refine ⟨by rw [depth_cons, ht, h.closed]; rfl, fun p hp => ?_⟩
  rcases List.prefix_cons_iff.mp hp with rfl | ⟨q, rfl, hq⟩
  · exact Int.le_refl 0
  · rw [depth_cons, ht, Int.zero_add]
    exact h.opened q hq

theorem word (w : String) : Balanced [.word w] := .cons rfl .nil

end Balanced

variable {ts us : List Token}

theorem depth_round (h : Balanced ts) : depth (round ts) = 0 := by
  rw [round, depth_cons, depth_append, h.closed]
  rfl

/-- Between two brackets that belong together one of them is open all the time. -/
theorem depth_pos_of_prefix_round (h : Balanced ts) {p : List Token} (hp : p <+: round ts) :
    p = [] ∨ p = round ts ∨ 0 < depth p := by
  rcases List.prefix_cons_iff.mp hp with rfl | ⟨q, rfl, hq⟩
  · exact .inl rfl
  rcases prefix_append_cases hq with hq | ⟨last, hlast, rfl⟩
  · have hdepth := h.opened q hq
    rw [depth_cons, weight_open]
    exact .inr (.inr (by omega))
  · rcases List.prefix_cons_iff.mp hlast with rfl | ⟨nothing, rfl, hnothing⟩
    · rw [List.append_nil, depth_cons, weight_open, h.closed]
      exact .inr (.inr (by decide))
    · rw [List.prefix_nil.mp hnothing]
      exact .inr (.inl rfl)

theorem Balanced.round (h : Balanced ts) : Balanced (round ts) := by
  refine ⟨depth_round h, fun p hp => ?_⟩
  rcases depth_pos_of_prefix_round h hp with rfl | rfl | hpos
  · exact Int.le_refl 0
  · exact Int.le_of_eq (depth_round h).symm
  · exact Int.le_of_lt hpos

/-- A balanced part that does not fill two brackets cannot start with the first of them. -/
theorem not_append_cons_eq_round (h : Balanced ts) {p q : List Token} {t : Token} (hp : depth p = 0)
    (hne : p ≠ []) : p ++ t :: q ≠ Code.round ts := by
  intro heq
  rcases depth_pos_of_prefix_round h ⟨t :: q, heq⟩ with hnil | hall | hpos
  · exact hne hnil
  · rw [hall] at heq
    exact absurd (List.append_right_eq_self.mp heq) (List.cons_ne_nil t q)
  · omega

/-! ## Sealed tokens -/

/-- A sign that may stand in front of an operand or between two. -/
def Token.IsOperator (t : Token) : Prop := t = .mark '~' ∨ ∃ op : BinaryOp, t = .word op.sign

theorem Token.IsOperator.weight {t : Token} (h : t.IsOperator) : t.weight = 0 := by
  rcases h with rfl | ⟨op, rfl⟩ <;> rfl

/-- Brackets are balanced, and operators stand inside of them only. -/
structure IsSealed (ts : List Token) : Prop where
  balanced : Balanced ts
  inside : ∀ p t q, t.IsOperator → ts = p ++ t :: q → depth p ≠ 0

theorem IsSealed.round (h : Balanced ts) : IsSealed (round ts) := by
  refine ⟨h.round, fun p t q ht heq hp => ?_⟩
  rcases p with _ | ⟨first, p⟩
  · rw [List.nil_append] at heq
    obtain rfl := (List.cons.inj heq).1
    exact nomatch ht.weight
  · exact not_append_cons_eq_round h hp (List.cons_ne_nil first p) heq.symm

theorem not_isOperator_word {w : String} (h : ∀ op : BinaryOp, w ≠ op.sign) :
    ¬(Token.word w).IsOperator := by
  rintro (hmark | ⟨op, hop⟩)
  · exact nomatch hmark
  · exact h op (Token.word.inj hop)

/-- Sealed tokens do not start with an operator. -/
theorem IsSealed.head {t : Token} {rest : List Token} (h : IsSealed (t :: rest)) : ¬t.IsOperator := fun ht =>
  h.inside [] t rest ht rfl rfl

/-- A token in front of sealed ones is sealed with them unless it is an operator. -/
theorem IsSealed.cons {t : Token} (ht : t.weight = 0) (hop : ¬t.IsOperator) (h : IsSealed ts) :
    IsSealed (t :: ts) := by
  refine ⟨h.balanced.cons ht, fun p t' q ht' heq hp => ?_⟩
  cases p with
  | nil =>
    obtain rfl := (List.cons.inj heq).1
    exact hop ht'
  | cons first p =>
    obtain ⟨rfl, hrest⟩ := List.cons.inj heq
    rw [depth_cons, ht, Int.zero_add] at hp
    exact h.inside p t' q ht' hrest hp

/-- A word that is no operator is sealed. -/
theorem IsSealed.word {w : String} (h : ∀ op : BinaryOp, w ≠ op.sign) : IsSealed [.word w] :=
  .cons rfl (not_isOperator_word h) ⟨.nil, by simp⟩

/-- Tokens can be divided at an operator between two sealed parts and nowhere else. -/
theorem IsSealed.split {before after p q : List Token} {t t' : Token} (hbefore : IsSealed before)
    (hafter : IsSealed after) (ht : t.IsOperator) (ht' : t'.IsOperator) (hp : depth p = 0)
    (h : p ++ t' :: q = before ++ t :: after) : p = before ∧ t' = t ∧ q = after := by
  rcases List.append_eq_append_iff.mp h with ⟨rest, hrest, hcons⟩ | ⟨rest, hrest, hcons⟩
  · cases rest with
    | nil =>
      obtain ⟨rfl, rfl⟩ := List.cons.inj hcons
      exact ⟨by simpa using hrest.symm, rfl, rfl⟩
    | cons first rest =>
      obtain ⟨rfl, -⟩ := List.cons.inj hcons
      exact absurd hp (hbefore.inside p t' rest ht' hrest)
  · cases rest with
    | nil =>
      obtain ⟨rfl, rfl⟩ := List.cons.inj hcons
      exact ⟨by simpa using hrest, rfl, rfl⟩
    | cons first rest =>
      obtain ⟨rfl, hafter'⟩ := List.cons.inj hcons
      have hdepth : depth rest = 0 := by
        rw [hrest, depth_append, depth_cons, hbefore.balanced.closed, ht.weight] at hp
        omega
      exact absurd hdepth (hafter.inside rest t' q ht' hafter')

end Code
end MessageRouter
