import MessageRouter.Proofs.Code.Grouping
import MessageRouter.Proofs.Receiver.Lowering
/-!
# `Proofs.Receiver.Rendering` — the text of an operand tells which operand it is

* `Func.Expr.Groups`: the expressions that some tokens can be grouped to if no operator binds more tightly than
  another.
* `Func.Expr.eq_of_groups_tokens`: the tokens of an expression can be grouped to this expression only.
* `Func.Expr.condition_eq_parenthesized`: a condition stands in brackets exactly where its ends are none.
* `Func.Expr.ofOperand_inj`: no two operands of a scope are the same expression.
* `Func.Expr.eq_of_rendering`: no two operands of a scope have the same text, be it as a condition or not.
-/
namespace MessageRouter

open Identifier (IsValid)

theorem BinaryOp.sign_inj {op op' : BinaryOp} (h : op.sign = op'.sign) : op = op' := by
  have hdistinct : (all.map sign).Nodup := by decide
  exact List.inj_on_of_nodup_map hdistinct (mem_all op) (mem_all op') h

namespace Func

open Code (Token IsName lex round IsSealed Balanced depth)

namespace Expr

/-! ## Groupings -/

/-- How tokens can be grouped to an expression if no operator binds more tightly than another: signs may take
whatever stands beside them, and only brackets keep together what is in them. -/
inductive Groups : Expr → List Token → Prop where
  | int (i : Int64) : Groups (int i) [.word (toString i.toInt)]
  | bool (b : Bool) : Groups (bool b) [.word (toString b)]
  | var {name} (h : IsName name) : Groups (var name) [.word name]
  | sliceBits {name} (h : IsName name) :
      Groups (sliceBits name) (.word "slice_bits" :: round [.word name])
  | round {e ts} (h : Groups e ts) : Groups e (round ts)
  | neg {x ts} (h : Groups x ts) : Groups (neg x) (.word "-" :: ts)
  | not {x ts} (h : Groups x ts) : Groups (not x) (.mark '~' :: ts)
  | binary {a b ts us} (op : BinaryOp) (ha : Groups a ts) (hb : Groups b us) :
      Groups (binary op a b) (ts ++ .word op.sign :: us)

/-- The tokens of an expression. -/
def tokens : Expr → List Token
  | int i => [.word (toString i.toInt)]
  | bool b => [.word (toString b)]
  | var name => [.word name]
  | sliceBits name => .word "slice_bits" :: round [.word name]
  | neg x => round (.word "-" :: x.tokens)
  | not x => round (.mark '~' :: x.tokens)
  | binary op a b => round (a.tokens ++ .word op.sign :: b.tokens)

/-- The tokens of an expression can be grouped to it. -/
theorem groups_tokens {e : Expr} (h : e.IsNamed) : Groups e e.tokens := by
  induction e with
  | int i => exact .int i
  | bool b => exact .bool b
  | var name => exact .var h
  | sliceBits name => exact .sliceBits h
  | neg x ih => exact .round (.neg (ih h))
  | not x ih => exact .round (.not (ih h))
  | binary op a b iha ihb => exact .round (.binary op (iha h.1) (ihb h.2))

theorem isOperator_minus : (Token.word "-").IsOperator := .inr ⟨.sub, rfl⟩

theorem isOperator_sign (op : BinaryOp) : (Token.word op.sign).IsOperator := .inr ⟨op, rfl⟩

theorem isOperator_tilde : (Token.mark '~').IsOperator := .inl rfl

/-- What can be grouped is not empty, and its brackets are balanced. -/
theorem Groups.balanced {e : Expr} {ts : List Token} (h : Groups e ts) : ts ≠ [] ∧ Balanced ts := by
  induction h with
  | int | bool | var => exact ⟨List.cons_ne_nil _ _, .word _⟩
  | sliceBits => exact ⟨List.cons_ne_nil _ _, (Balanced.word _).round.cons rfl⟩
  | round _ ih => exact ⟨List.cons_ne_nil _ _, ih.2.round⟩
  | neg _ ih | not _ ih => exact ⟨List.cons_ne_nil _ _, ih.2.cons rfl⟩
  | binary op _ _ iha ihb => exact ⟨by simp, iha.2.append (ihb.2.cons rfl)⟩

/-! ## Words -/

theorem toString_int_ne_sign (i : Int) (op : BinaryOp) : toString i ≠ op.sign := by
  intro h
  have hnumber := Code.number?_toString i
  rw [h] at hnumber
  cases op <;> exact nomatch hnumber

theorem isName_ne_sign {name : String} (h : IsName name) (op : BinaryOp) : name ≠ op.sign :=
  h.ne (by cases op <;> decide)

/-- What a word alone is: a truth value, a number or a name. -/
def ofWord (w : String) : Expr :=
  if w = "true" then bool true
  else if w = "false" then bool false
  else
    match Code.number? w.toList with
    | some i => int (.ofInt i)
    | none => var w

theorem ofWord_toString (i : Int64) : ofWord (toString i.toInt) = int i := by
  have hnumber := Code.number?_toString i.toInt
  have hne {w : String} (hw : Code.number? w.toList = none) : toString i.toInt ≠ w := by
    rintro rfl
    exact nomatch hnumber.symm.trans hw
  rw [ofWord, if_neg (hne rfl), if_neg (hne rfl), hnumber]
  exact congrArg int (Int64.ofInt_toInt i)

theorem ofWord_bool (b : Bool) : ofWord (toString b) = bool b := by
  cases b <;> rfl

theorem ofWord_name {name : String} (h : IsName name) : ofWord name = var name := by
  rw [ofWord, if_neg (h.ne (by decide)), if_neg (h.ne (by decide)), h.number?_eq_none]

/-! ## One grouping -/

/-- Operators stand inside the brackets of an expression only. -/
theorem isSealed_tokens {e : Expr} (h : e.IsNamed) : IsSealed e.tokens := by
  induction e with
  | int i => exact .word (toString_int_ne_sign i.toInt)
  | bool b => exact .word fun op => by cases b <;> cases op <;> decide
  | var name => exact .word (isName_ne_sign h)
  | sliceBits name =>
    refine .cons rfl (Code.not_isOperator_word fun op => ?_) (.round (.word name))
    cases op <;> decide
  | neg x ih => exact .round ((ih h).balanced.cons rfl)
  | not x ih => exact .round ((ih h).balanced.cons rfl)
  | binary op a b iha ihb => exact .round ((iha h.1).balanced.append ((ihb h.2).balanced.cons rfl))

/-- Tokens that are sealed are not taken apart. -/
theorem not_isSealed_binary {a : Expr} {ts us : List Token} (op : BinaryOp) (ha : Groups a ts) :
    ¬IsSealed (ts ++ .word op.sign :: us) := fun hsealed =>
  hsealed.inside ts _ us (isOperator_sign op) rfl ha.balanced.2.closed

/-- Two brackets that belong together are grouped as such. -/
theorem groups_of_groups_round {e : Expr} {ts : List Token} (hts : Balanced ts)
    (h : Groups e (round ts)) : Groups e ts := by
  have hsealed := IsSealed.round hts
  generalize hall : round ts = all at h hsealed
  cases h with
  | int | bool | var | sliceBits | neg | not => exact nomatch (List.cons.inj hall).1
  | round h =>
    obtain rfl := Code.round_inj hall
    exact h
  | binary op ha hb => exact absurd hsealed (not_isSealed_binary op ha)

/-- A word alone is grouped to what it is. -/
theorem eq_of_groups_word {e : Expr} {w : String} (h : Groups e [.word w]) : e = ofWord w := by
  generalize hall : [Token.word w] = all at h
  cases h with
  | int i =>
    obtain rfl := Token.word.inj (List.cons.inj hall).1
    exact (ofWord_toString i).symm
  | bool b =>
    obtain rfl := Token.word.inj (List.cons.inj hall).1
    exact (ofWord_bool b).symm
  | var h =>
    obtain rfl := Token.word.inj (List.cons.inj hall).1
    exact (ofWord_name h).symm
  | sliceBits | round | not => exact nomatch hall
  | neg h => exact absurd (List.cons.inj hall).2.symm h.balanced.1
  | @binary a b ts us op ha hb =>
    have hlength := congrArg List.length hall
    have hts := List.length_pos_iff.mpr ha.balanced.1
    have hus := List.length_pos_iff.mpr hb.balanced.1
    simp only [List.length_cons, List.length_nil, List.length_append] at hlength
    omega

/-- A call is grouped as such. -/
theorem eq_of_groups_sliceBits {e : Expr} {name : String} (hname : IsName name)
    (h : Groups e (sliceBits name).tokens) : e = sliceBits name := by
  have hsealed := isSealed_tokens (e := sliceBits name) hname
  generalize hall : (sliceBits name).tokens = all at h hsealed
  cases h with
  | int | bool | var => exact nomatch (List.cons.inj hall).2
  | sliceBits =>
    have hround := Code.round_inj (List.cons.inj hall).2
    rw [Token.word.inj (List.cons.inj hround).1]
  | round | not => exact nomatch (List.cons.inj hall).1
  | neg => exact absurd (Token.word.inj (List.cons.inj hall).1) (by decide)
  | binary op ha hb => exact absurd hsealed (not_isSealed_binary op ha)

/-- A sign in front of sealed tokens takes them. -/
theorem groups_cons {e : Expr} {t : Token} {ts : List Token} (ht : t.IsOperator) (hts : IsSealed ts)
    (h : Groups e (t :: ts)) :
    (t = .word "-" ∧ ∃ x, e = neg x ∧ Groups x ts) ∨ (t = .mark '~' ∧ ∃ x, e = not x ∧ Groups x ts) := by
  -- an atom is sealed, so it does not begin with an operator
  have hatom {a : Expr} (ha : a.IsNamed) (hall : t :: ts = a.tokens) : False :=
    (hall ▸ isSealed_tokens ha).head ht
  generalize hall : t :: ts = all at h
  cases h with
  | int i => exact (hatom (a := int i) trivial hall).elim
  | bool b => exact (hatom (a := bool b) trivial hall).elim
  | @var name h => exact (hatom (a := var name) h hall).elim
  | @sliceBits name h => exact (hatom (a := sliceBits name) h hall).elim
  | round h =>
    obtain rfl := (List.cons.inj hall).1
    exact nomatch ht.weight
  | neg h =>
    obtain ⟨rfl, rfl⟩ := List.cons.inj hall
    exact .inl ⟨rfl, _, rfl, h⟩
  | not h =>
    obtain ⟨rfl, rfl⟩ := List.cons.inj hall
    exact .inr ⟨rfl, _, rfl, h⟩
  | @binary a b us vs op ha hb =>
    obtain ⟨hne, hbalanced⟩ := ha.balanced
    cases us with
    | nil => exact absurd rfl hne
    | cons first us =>
      obtain ⟨rfl, rfl⟩ := List.cons.inj hall
      -- an operator between two expressions stands outside all brackets, and the tokens after the sign have none there
      have hdepth : depth us = 0 := by simpa [ht.weight] using hbalanced.closed
      exact absurd hdepth (hts.inside us _ vs (isOperator_sign op) rfl)

/-- An operator between two expressions takes them. -/
theorem exists_of_groups_binary {op : BinaryOp} {a b e : Expr} (ha : a.IsNamed) (hb : b.IsNamed)
    (h : Groups e (a.tokens ++ .word op.sign :: b.tokens)) :
    ∃ a' b', e = binary op a' b' ∧ Groups a' a.tokens ∧ Groups b' b.tokens := by
  have hnot {ts : List Token} (hall : a.tokens ++ .word op.sign :: b.tokens = ts) : ¬IsSealed ts :=
    hall ▸ not_isSealed_binary op (groups_tokens ha)
  have hhead {t : Token} {ts : List Token} (ht : t.IsOperator)
      (hall : a.tokens ++ .word op.sign :: b.tokens = t :: ts) : False := by
    obtain ⟨first, rest, hfirst⟩ := List.exists_cons_of_ne_nil (groups_tokens ha).balanced.1
    rw [hfirst] at hall
    obtain rfl := (List.cons.inj hall).1
    exact (hfirst ▸ isSealed_tokens ha).head ht
  generalize hall : a.tokens ++ .word op.sign :: b.tokens = all at h
  cases h with
  | int i => exact absurd (isSealed_tokens (e := int i) trivial) (hnot hall)
  | bool b => exact absurd (isSealed_tokens (e := bool b) trivial) (hnot hall)
  | @var name h => exact absurd (isSealed_tokens (e := var name) h) (hnot hall)
  | @sliceBits name h => exact absurd (isSealed_tokens (e := sliceBits name) h) (hnot hall)
  | round h => exact absurd (IsSealed.round h.balanced.2) (hnot hall)
  | neg h => exact (hhead isOperator_minus hall).elim
  | not h => exact (hhead isOperator_tilde hall).elim
  | @binary a' b' ts us op' ha' hb' =>
    obtain ⟨rfl, hop, rfl⟩ := (isSealed_tokens ha).split (isSealed_tokens hb) (isOperator_sign op)
      (isOperator_sign op') ha'.balanced.2.closed hall.symm
    obtain rfl := BinaryOp.sign_inj (Token.word.inj hop)
    exact ⟨a', b', rfl, ha', hb'⟩

/-- The tokens of an expression can be grouped to this expression only. -/
theorem eq_of_groups_tokens {e e' : Expr} (h : e.IsNamed) (h' : Groups e' e.tokens) : e' = e := by
  induction e generalizing e' with
  | int i => rw [eq_of_groups_word h', ofWord_toString]
  | bool b => rw [eq_of_groups_word h', ofWord_bool]
  | var name => rw [eq_of_groups_word h', ofWord_name h]
  | sliceBits name => exact eq_of_groups_sliceBits h h'
  | neg x ih =>
    have hx := isSealed_tokens (e := x) h
    have hinner := groups_of_groups_round (hx.balanced.cons isOperator_minus.weight) h'
    rcases groups_cons isOperator_minus hx hinner with ⟨-, x', rfl, hx'⟩ | ⟨hmark, -⟩
    · rw [ih h hx']
    · exact nomatch hmark
  | not x ih =>
    have hx := isSealed_tokens (e := x) h
    have hinner := groups_of_groups_round (hx.balanced.cons isOperator_tilde.weight) h'
    rcases groups_cons isOperator_tilde hx hinner with ⟨hword, -⟩ | ⟨-, x', rfl, hx'⟩
    · exact nomatch hword
    · rw [ih h hx']
  | binary op a b iha ihb =>
    have hboth := (isSealed_tokens h.1).balanced.append
      ((isSealed_tokens h.2).balanced.cons (isOperator_sign op).weight)
    obtain ⟨a', b', rfl, ha', hb'⟩ :=
      exists_of_groups_binary h.1 h.2 (groups_of_groups_round hboth h')
    rw [iha h.1 ha', ihb h.2 hb']

/-! ## Texts -/

/-- Brackets around a text. -/
theorem lex_round (cs : List Char) : lex ('(' :: (cs ++ [')'])) = round (lex cs) := by
  have hopen := Code.lex_mark (c := '(') (by decide) (by decide) [] (cs ++ [')'])
  have hclose := Code.lex_mark (c := ')') (by decide) (by decide) cs []
  rw [List.nil_append] at hopen
  rw [hopen, hclose]
  rfl

/-- The text of a named expression has the tokens of the expression. -/
theorem lex_text {e : Expr} (h : e.IsNamed) : lex e.text.toList = e.tokens := by
  induction e with
  | int i => exact Code.lex_word (Code.isWord_toString i.toInt)
  | bool b => exact Code.lex_word (Code.isWord_bool b)
  | var name => exact Code.lex_word h.isWord
  | sliceBits name =>
    have htext : (sliceBits name).text.toList = "slice_bits".toList ++ '(' :: (name.toList ++ [')']) := by
      simp [text]
    rw [htext, Code.lex_mark (by decide) (by decide), Code.lex_mark (by decide) (by decide),
      Code.lex_word h.isWord]
    rfl
  | neg x ih =>
    have htext : (neg x).text.toList = '(' :: (['-'] ++ ' ' :: x.text.toList ++ [')']) := by simp [text]
    rw [htext, lex_round, Code.lex_space, ih h]
    rfl
  | not x ih =>
    have htext : (not x).text.toList = '(' :: (['~'] ++ ' ' :: x.text.toList ++ [')']) := by simp [text]
    rw [htext, lex_round, Code.lex_space, ih h]
    rfl
  | binary op a b iha ihb =>
    have htext : (binary op a b).text.toList =
        '(' :: (a.text.toList ++ ' ' :: (op.sign.toList ++ ' ' :: b.text.toList) ++ [')']) := by
      simp [text]
    have hsign : lex op.sign.toList = [.word op.sign] := by cases op <;> rfl
    rw [htext, lex_round, Code.lex_space, Code.lex_space, iha h.1, ihb h.2, hsign]
    rfl

/-- The text of an expression can be grouped to this expression only. -/
theorem groups_lex_text_iff {e e' : Expr} (h : e.IsNamed) : Groups e' (lex e.text.toList) ↔ e' = e := by
  rw [lex_text h]
  constructor
  · exact eq_of_groups_tokens h
  · rintro rfl
    exact groups_tokens h

/-- So can the text of a condition, where brackets may have been added. -/
theorem groups_lex_condition_iff {e e' : Expr} (h : e.IsNamed) :
    Groups e' (lex e.condition.toList) ↔ e' = e := by
  rw [← groups_lex_text_iff h, condition]
  split
  · rfl
  · have htext : ("(" ++ e.text ++ ")").toList = '(' :: (e.text.toList ++ [')']) := by simp
    rw [htext, lex_round]
    constructor
    · exact groups_of_groups_round (lex_text h ▸ (isSealed_tokens h).balanced)
    · exact .round

/-- A text in brackets, unless its first character opens one and its last character closes one. -/
def parenthesized (text : String) : String :=
  if text.toList.head? = some '(' ∧ text.toList.getLast? = some ')' then text else "(" ++ text ++ ")"

/-- Every operation stands in brackets. -/
theorem exists_toList_text {e : Expr} (h : e.isOperation = true) :
    ∃ cs, e.text.toList = '(' :: cs ++ [')'] := by
  cases e with
  | int | bool | var | sliceBits => exact nomatch h
  | neg x => exact ⟨'-' :: ' ' :: x.text.toList, by simp [text]⟩
  | not x => exact ⟨'~' :: ' ' :: x.text.toList, by simp [text]⟩
  | binary op a b => exact ⟨a.text.toList ++ ' ' :: (op.sign.toList ++ ' ' :: b.text.toList), by simp [text]⟩

/-- Nothing else starts with a bracket. -/
theorem head?_text_ne {e : Expr} (h : e.IsNamed) (hop : e.isOperation = false) :
    e.text.toList.head? ≠ some '(' := by
  have hword {w : String} (hw : Code.IsWord w) : w.toList.head? ≠ some '(' := fun hhead =>
    absurd (hw.parts _ (List.mem_of_mem_head? hhead)) (by decide)
  cases e with
  | int i => exact hword (Code.isWord_toString i.toInt)
  | bool b => exact hword (Code.isWord_bool b)
  | var name => exact hword h.isWord
  | sliceBits name => simp [text]
  | neg | not | binary => cases hop

/-- The ends of a text tell whether it is that of an operation. -/
theorem condition_eq_parenthesized {e : Expr} (h : e.IsNamed) : e.condition = parenthesized e.text := by
  unfold condition parenthesized
  cases hop : e.isOperation with
  | true =>
    obtain ⟨cs, hcs⟩ := exists_toList_text hop
    rw [if_pos rfl, hcs, if_pos ⟨rfl, List.getLast?_concat⟩]
  | false => rw [if_neg Bool.false_ne_true, if_neg fun hends => head?_text_ne h hop hends.1]

end Expr
end Func

/-! ## Operands -/

namespace Func.Expr

open Code (lex)

variable {s : Scope}

/-- What has a value stands under a variable of its own: that of a field holds a quote, that of a local does
not. -/
theorem eq_of_variableOf_eq (h : s.HasValidNames) {p q : Place} {b b' : Binding} (hp : s.Resolves p b)
    (hq : s.Resolves q b') (hb : ∀ binding, b ≠ .payloadSlice binding)
    (hb' : ∀ binding, b' ≠ .payloadSlice binding) (heq : variableOf p b = variableOf q b') : p = q := by
  have hp' := hp.isValid_root h
  have hq' := hq.isValid_root h
  have hfield {binding binding' name name' : String} (hbinding : IsValid .localName binding)
      (hbinding' : IsValid .localName binding') (heq : Name.field binding name = Name.field binding' name') :
      (⟨binding, some name⟩ : Place) = ⟨binding', some name'⟩ := by
    obtain ⟨rfl, rfl⟩ := Name.field_inj hbinding hbinding' heq
    rfl
  cases hp with
  | payloadSlice => exact absurd rfl (hb _)
  | stateField hf | payloadField hself hpayload hf =>
    cases hq with
    | payloadSlice => exact absurd rfl (hb' _)
    | stateField hf' | payloadField hself' hpayload' hf' =>
      obtain rfl := (Scope.mem_of_field? hf).2
      obtain rfl := (Scope.mem_of_field? hf').2
      exact hfield hp' hq' heq
    | localVar => exact absurd heq.symm (Name.var_ne_field hq' _ _)
  | localVar =>
    cases hq with
    | payloadSlice => exact absurd rfl (hb' _)
    | stateField hf' | payloadField hself' hpayload' hf' => exact absurd heq (Name.var_ne_field hp' _ _)
    | localVar =>
      obtain rfl := Name.var_inj heq
      rfl

/-- Only one place of a scope can be measured under a name. -/
theorem eq_of_resolves_payloadSlice {p q : Place} {binding binding' : String}
    (hp : s.Resolves p (.payloadSlice binding)) (hq : s.Resolves q (.payloadSlice binding'))
    (heq : Name.var p.root = Name.var q.root) : p = q := by
  cases hp
  cases hq
  obtain rfl := Name.var_inj heq
  rfl

/-- An operand that fits its scope, and its expression. -/
inductive Computes (s : Scope) : Operand → Expr → Prop where
  | int (i : Int64) : Computes s (.int i) (int i)
  | bool (b : Bool) : Computes s (.bool b) (bool b)
  | place {p b} (hb : s.Resolves p b) (hvalue : ∀ binding, b ≠ .payloadSlice binding) :
      Computes s (.place p) (var (variableOf p b))
  | bits {p binding} (hb : s.Resolves p (.payloadSlice binding)) :
      Computes s (.bits p) (sliceBits (Name.var p.root))
  | neg {x e} (h : Computes s x e) : Computes s (.unary .neg x) (neg e)
  | not {x e} (h : Computes s x e) : Computes s (.unary .not x) (not e)
  | binary {a b ea eb} (op : BinaryOp) (ha : Computes s a ea) (hb : Computes s b eb) :
      Computes s (.binary op a b) (binary op ea eb)

/-- Every operand that fits its scope has an expression. -/
theorem exists_computes {x : Operand} (h : s.checkOperand x = .ok ()) :
    ∃ e, ofOperand s x = .ok e ∧ Computes s x e := by
  induction x with
  | int i => exact ⟨_, rfl, .int i⟩
  | bool b => exact ⟨_, rfl, .bool b⟩
  | place p =>
    obtain ⟨b, hb, hvalue⟩ := Scope.resolve_of_checkRead h
    exact ⟨_, Fallible.map_eq_ok_iff.mpr ⟨b, hb, rfl⟩, .place (Scope.resolves_of_resolve hb) hvalue⟩
  | bits p =>
    obtain ⟨binding, hb⟩ := Scope.resolve_of_checkMeasure h
    exact ⟨_, Fallible.map_eq_ok_iff.mpr ⟨_, hb, rfl⟩, .bits (Scope.resolves_of_resolve hb)⟩
  | unary op x ih =>
    obtain ⟨e, he, hx⟩ := ih h
    cases op with
    | neg => exact ⟨_, Fallible.map_eq_ok_iff.mpr ⟨e, he, rfl⟩, .neg hx⟩
    | not => exact ⟨_, Fallible.map_eq_ok_iff.mpr ⟨e, he, rfl⟩, .not hx⟩
  | binary op a b iha ihb =>
    obtain ⟨_, ha, hb⟩ := Fallible.bind_eq_ok_iff.mp h
    obtain ⟨ea, hea, ha⟩ := iha ha
    obtain ⟨eb, heb, hb⟩ := ihb hb
    refine ⟨_, Fallible.bind_eq_ok_iff.mpr ⟨ea, hea, Fallible.bind_eq_ok_iff.mpr ⟨eb, heb, rfl⟩⟩, ?_⟩
    exact .binary op ha hb

/-- No two operands of a scope have the same expression. -/
theorem Computes.inj (h : s.HasValidNames) {a b : Operand} {e : Expr} (ha : Computes s a e)
    (hb : Computes s b e) : a = b := by
  induction ha generalizing b with
  | int i | bool v =>
    cases hb
    rfl
  | place hp hvalue =>
    generalize hvar : var _ = e at hb
    cases hb with
    | place hq hvalue' => rw [eq_of_variableOf_eq h hp hq hvalue hvalue' (Expr.var.inj hvar)]
    | int | bool | bits | neg | not | binary => exact nomatch hvar
  | bits hp =>
    generalize hvar : sliceBits _ = e at hb
    cases hb with
    | bits hq => rw [eq_of_resolves_payloadSlice hp hq (Expr.sliceBits.inj hvar)]
    | int | bool | place | neg | not | binary => exact nomatch hvar
  | neg _ ih =>
    cases hb with
    | neg hb => rw [ih hb]
  | not _ ih =>
    cases hb with
    | not hb => rw [ih hb]
  | binary op _ _ iha ihb =>
    cases hb with
    | binary _ ha' hb' => rw [iha ha', ihb hb']

/-- Operands of a scope with the same text are the same, be the text that of a condition or not. Whatever binds
more tightly, the text can be grouped to the expression of its operand only. -/
theorem eq_of_rendering (h : s.HasValidNames) {a b : Operand} (ha : s.checkOperand a = .ok ())
    (hb : s.checkOperand b = .ok ()) :
    ∃ ea eb, ofOperand s a = .ok ea ∧ ofOperand s b = .ok eb ∧
      (ea.text = eb.text ∨ ea.condition = eb.condition → a = b) ∧
      ea.condition = parenthesized ea.text ∧
      ∀ e, (Groups e (lex ea.text.toList) ↔ e = ea) ∧ (Groups e (lex ea.condition.toList) ↔ e = ea) := by
  obtain ⟨ea, hea, ha⟩ := exists_computes ha
  obtain ⟨eb, heb, hb⟩ := exists_computes hb
  have hna := isNamed_ofOperand h hea
  have hnb := isNamed_ofOperand h heb
  refine ⟨ea, eb, hea, heb, fun hsame => ?_, condition_eq_parenthesized hna, fun e =>
    ⟨groups_lex_text_iff hna, groups_lex_condition_iff hna⟩⟩
  have heq : ea = eb := by
    rcases hsame with htext | hcondition
    · refine (groups_lex_text_iff hnb).mp ?_
      rw [← htext]
      exact (groups_lex_text_iff hna).mpr rfl
    · refine (groups_lex_condition_iff hnb).mp ?_
      rw [← hcondition]
      exact (groups_lex_condition_iff hna).mpr rfl
  subst heq
  exact ha.inj h hb

/-- A difference tells where its brackets were. -/
theorem eq_of_rendering_difference :
    let s : Scope := ⟨[⟨"n", .int 64⟩], .slice "body", ["x"], []⟩
    let x : Operand := .place ⟨"x", none⟩
    let n : Operand := .place ⟨"self", some "n"⟩
    let size : Operand := .bits ⟨"body", none⟩
    s.HasValidNames ∧
      s.checkOperand (.binary .sub x (.binary .sub n size)) = .ok () ∧
      s.checkOperand (.binary .sub (.binary .sub x n) size) = .ok () ∧
      ∃ ea eb, ofOperand s (.binary .sub x (.binary .sub n size)) = .ok ea ∧
        ofOperand s (.binary .sub (.binary .sub x n) size) = .ok eb ∧ ea.text ≠ eb.text ∧
        ea.condition ≠ eb.condition := by
  intro s x n size
  have hnames : s.HasValidNames := by
    refine ⟨List.forall_mem_singleton.mpr (Identifier.check_eq_ok_iff.mp rfl), ?_, nofun, ?_⟩
    · rintro binding hbinding
      obtain rfl := Option.some.inj hbinding
      exact Identifier.check_eq_ok_iff.mp rfl
    · rintro name hname
      obtain rfl : name = "x" := by simpa [s, Scope.isLocal] using hname
      exact Identifier.check_eq_ok_iff.mp rfl
  obtain ⟨ea, eb, hea, heb, hsame, -⟩ := eq_of_rendering hnames
    (a := .binary .sub x (.binary .sub n size)) (b := .binary .sub (.binary .sub x n) size) rfl rfl
  exact ⟨hnames, rfl, rfl, ea, eb, hea, heb, fun htext => absurd (hsame (.inl htext)) (by decide),
    fun hcondition => absurd (hsame (.inr hcondition)) (by decide)⟩

end Func.Expr
end MessageRouter
