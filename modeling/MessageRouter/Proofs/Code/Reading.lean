import MessageRouter.Func.Shape
import MessageRouter.Proofs.Code.Word
/-!
# `Proofs.Code.Reading` — text is read part by part

* `Reads`: tokens that are read as some items wherever they stand.
* `Spells`: a piece of a line whose tokens are read so.
* `SpellsOperand`, `SpellsPart`: a piece that is one operand, and one that is any expression.

Each way of putting text together has one lemma, so that the text of a program is read by following how it was
written.
-/
namespace MessageRouter
namespace Code

variable {ts us : List Token} {is js ks : List Item} {stack : List (Bracket × List Item)}

/-! ## Tokens -/

theorem read_mark {c : Char} (hc : c ∉ ['(', ')', '\x7b', '\x7d']) :
    read stack is (.mark c :: ts) = read stack (is ++ [.mark c]) ts := by
  simp only [List.mem_cons, List.not_mem_nil, or_false, not_or] at hc
  obtain ⟨h₁, h₂, h₃, h₄⟩ := hc
  rw [read, if_neg h₁, if_neg h₃, if_neg (not_or.mpr ⟨h₂, h₄⟩)]

theorem read_open : read stack is (.mark '(' :: ts) = read ((.round, is) :: stack) [] ts := by
  rw [read, if_pos rfl]

theorem read_openBlock :
    read stack is (.mark '\x7b' :: ts) = read ((.curly, is) :: stack) [] ts := by
  rw [read, if_neg (by decide), if_pos rfl]

theorem read_close {parts : List Expr} (h : exprs? js = some parts) :
    read ((.round, is) :: stack) js (.mark ')' :: ts) = read stack (is ++ [.group parts]) ts := by
  rw [read, if_neg (by decide), if_neg (by decide), if_pos (by decide), close?, if_pos rfl, h]
  rfl

theorem read_closeBlock {body : List Stmt} (h : stmts? js = some body) :
    read ((.curly, is) :: stack) js (.mark '\x7d' :: ts) = read stack (is ++ [.block body]) ts := by
  rw [read, if_neg (by decide), if_neg (by decide), if_pos (by decide), close?, if_pos rfl, h]
  rfl

/-- Tokens that are read as some items wherever they stand. -/
def Reads (ts : List Token) (is : List Item) : Prop :=
  ∀ stack before rest, read stack before (ts ++ rest) = read stack (before ++ is) rest

namespace Reads

theorem nil : Reads [] [] := fun stack before rest => by simp

theorem append (h : Reads ts is) (h' : Reads us js) : Reads (ts ++ us) (is ++ js) := by
  intro stack before rest
  rw [List.append_assoc, h, h', List.append_assoc]

theorem word (w : String) : Reads [.word w] [.word w] :=
  fun _ _ _ => by rw [List.singleton_append, read]

theorem mark {c : Char} (hc : c ∉ ['(', ')', '\x7b', '\x7d']) : Reads [.mark c] [.mark c] :=
  fun _ _ _ => read_mark hc

/-- What stands between round brackets is read first. -/
theorem group (h : Reads ts is) {parts : List Expr} (hparts : exprs? is = some parts) :
    Reads (.mark '(' :: ts ++ [.mark ')']) [.group parts] := by
  intro stack before rest
  rw [List.cons_append, List.cons_append, read_open, List.append_assoc, h, List.nil_append,
    List.singleton_append, read_close hparts]

/-- What stands between curly brackets is read first. -/
theorem block (h : Reads ts is) {body : List Stmt} (hbody : stmts? is = some body) :
    Reads (.mark '\x7b' :: ts ++ [.mark '\x7d']) [.block body] := by
  intro stack before rest
  rw [List.cons_append, List.cons_append, read_openBlock, List.append_assoc, h, List.nil_append,
    List.singleton_append, read_closeBlock hbody]

/-- Such tokens are read as these items alone. -/
theorem read_eq (h : Reads ts is) : read [] [] ts = some is := by
  have hts := h [] [] []
  rw [List.append_nil, List.nil_append] at hts
  rw [hts]
  rfl

end Reads

/-! ## Pieces of lines -/

/-- A piece of a line whose tokens are read as some items. -/
structure Spells (cs : List Char) (is : List Item) : Prop where
  oneLine : '\n' ∉ cs
  reads : Reads (lex cs) is

namespace Spells

variable {x y z : List Char}

theorem nil : Spells [] [] := ⟨nofun, .nil⟩

theorem word {w : String} (h : IsWord w) : Spells w.toList [.word w] := by
  refine ⟨fun hmem => absurd (h.parts _ hmem) (by decide), ?_⟩
  rw [lex_word h]
  exact .word w

/-- A blank stands between two pieces. -/
theorem space (hx : Spells x is) (hy : Spells y js) : Spells (x ++ ' ' :: y) (is ++ js) := by
  refine ⟨?_, ?_⟩
  · simp [hx.oneLine, hy.oneLine]
  · rw [lex_space]
    exact hx.reads.append hy.reads

theorem ofMark {c : Char} (hc : isMark c = true) (hblank : Text.isBlank c = false)
    (hbracket : c ∉ ['(', ')', '\x7b', '\x7d']) (hx : Spells x is) (hy : Spells y js) :
    Spells (x ++ c :: y) (is ++ .mark c :: js) := by
  have hline : '\n' ≠ c := by
    rintro rfl
    exact nomatch hblank
  refine ⟨?_, ?_⟩
  · simp [hx.oneLine, hy.oneLine, hline]
  · rw [lex_mark hc hblank]
    exact hx.reads.append (Reads.append (.mark hbracket) hy.reads)

theorem comma (hx : Spells x is) (hy : Spells y js) : Spells (x ++ ',' :: y) (is ++ .mark ',' :: js) :=
  ofMark (by decide) (by decide) (by decide) hx hy

theorem semicolon (hx : Spells x is) : Spells (x ++ [';']) (is ++ [.mark ';']) :=
  ofMark (by decide) (by decide) (by decide) hx .nil

theorem tilde (hx : Spells x is) (hy : Spells y js) : Spells (x ++ '~' :: y) (is ++ .mark '~' :: js) :=
  ofMark (by decide) (by decide) (by decide) hx hy

theorem point (hx : Spells x is) (hy : Spells y js) : Spells (x ++ '.' :: y) (is ++ .mark '.' :: js) :=
  ofMark (by decide) (by decide) (by decide) hx hy

/-- What stands between round brackets after a piece is read first. -/
theorem group (hx : Spells x is) (hy : Spells y js) {parts : List Expr}
    (hparts : exprs? js = some parts) (hz : Spells z ks) :
    Spells (x ++ '(' :: (y ++ ')' :: z)) (is ++ .group parts :: ks) := by
  refine ⟨?_, ?_⟩
  · simp [hx.oneLine, hy.oneLine, hz.oneLine]
  · rw [lex_mark (by decide) (by decide), lex_mark (by decide) (by decide)]
    have hgroup := (hy.reads.group hparts).append hz.reads
    have hall := hx.reads.append hgroup
    simpa using hall

/-- A piece in round brackets. -/
theorem round (hy : Spells y js) {parts : List Expr} (hparts : exprs? js = some parts) :
    Spells ('(' :: (y ++ [')'])) [.group parts] :=
  Spells.nil.group hy hparts .nil

end Spells

/-! ## Expressions -/

/-- An item that stands neither between statements nor between expressions. -/
def Item.isPlain : Item → Bool
  | .block _ => false
  | .mark c => c != ';' && c != ','
  | .word _ | .group _ => true

theorem Item.isComma_of_isPlain {i : Item} (h : i.isPlain = true) : i.isComma = false := by
  cases i with
  | mark c =>
    rw [isPlain, Bool.and_eq_true] at h
    simpa [isComma] using h.2
  | word | group | block => rfl

/-- One expression has no comma. -/
theorem exprs?_of_plain (hne : is ≠ []) (h : ∀ i ∈ is, i.isPlain = true) {e : Expr}
    (he : expr? is = some e) : exprs? is = some [e] := by
  have hcomma : ∀ i ∈ is, i.isComma = false := fun i hi => Item.isComma_of_isPlain (h i hi)
  rw [exprs?, if_neg (by simpa using hne), List.splitOnP_eq_singleton hcomma]
  simp [he]

/-- A comma stands between an expression and others. -/
theorem exprs?_comma (h : ∀ i ∈ is, i.isPlain = true) (hjs : js ≠ []) {e : Expr}
    {es : List Expr} (he : expr? is = some e) (hes : exprs? js = some es) :
    exprs? (is ++ .mark ',' :: js) = some (e :: es) := by
  have hcomma : ∀ i ∈ is, i.isComma = false := fun i hi => Item.isComma_of_isPlain (h i hi)
  rw [exprs?, if_neg (by simpa using hjs)] at hes
  rw [exprs?, if_neg (by simp), List.splitOnP_append_cons_of_forall_mem hcomma _ (by decide),
    List.mapM_cons, he]
  simp [hes]

variable {x y z : List Char} {e e' : Expr}

/-- A piece of a line that is one expression. -/
structure SpellsPart (cs : List Char) (is : List Item) (e : Expr) : Prop where
  spells : Spells cs is
  ne_nil : is ≠ []
  plain : ∀ i ∈ is, i.isPlain = true
  expr : expr? is = some e

theorem SpellsPart.exprs (h : SpellsPart x is e) : exprs? is = some [e] :=
  exprs?_of_plain h.ne_nil h.plain h.expr

/-- What may come after an operand: nothing, or a word and more. -/
def GoesOn (rest : List Item) : Prop := rest = [] ∨ ∃ w tail, rest = .word w :: tail

/-- A piece of a line that is one operand, whatever comes after it. -/
structure SpellsOperand (cs : List Char) (is : List Item) (e : Expr) : Prop where
  spells : Spells cs is
  ne_nil : is ≠ []
  plain : ∀ i ∈ is, i.isPlain = true
  operand : ∀ rest, GoesOn rest → operand? (is ++ rest) = some (e, rest)
  /-- It does not start with the sign of a negative expression. -/
  expr : ∀ rest, expr? (is ++ rest) = infix? (is ++ rest)

namespace SpellsOperand

theorem whole (h : SpellsOperand x is e) : whole? is = some e := by
  have hoperand := h.operand [] (.inl rfl)
  rw [List.append_nil] at hoperand
  rw [whole?, hoperand]

theorem part (h : SpellsOperand x is e) : SpellsPart x is e where
  spells := h.spells
  ne_nil := h.ne_nil
  plain := h.plain
  expr := by
    have hexpr := h.expr []
    have hoperand := h.operand [] (.inl rfl)
    rw [List.append_nil] at hexpr hoperand
    rw [hexpr, infix?, hoperand]

/-! ### Words -/

/-- A word that is no sign is a literal or a variable. -/
theorem word {w : String} (h : IsWord w) (hne : w ≠ "-") :
    SpellsOperand w.toList [.word w] (atom w) where
  spells := .word h
  ne_nil := by simp
  plain := by simp [Item.isPlain]
  operand rest hrest := by
    rcases hrest with rfl | ⟨v, tail, rfl⟩ <;> rfl
  expr rest := if_neg hne

theorem name {name : String} (h : IsName name) :
    SpellsOperand name.toList [.word name] (.var name) := by
  have hword := word h.isWord (h.ne (by decide))
  rwa [h.atom_eq] at hword

theorem number (i : Int) : SpellsOperand (toString i).toList [.word (toString i)] (.int i) := by
  have hword := word (isWord_toString i) (toString_ne_minus i)
  rwa [atom_toString] at hword

theorem bool (b : Bool) :
    SpellsOperand (toString b).toList [.word (toString b)] (.int (if b then -1 else 0)) := by
  have hword := word (isWord_bool b) (by cases b <;> decide)
  rwa [atom_bool] at hword

/-! ### Calls -/

/-- A function and what it is called on. -/
theorem call {f : String} (hf : IsWord f) (hne : f ≠ "-") (h : SpellsPart x is e) :
    SpellsOperand (f.toList ++ '(' :: (x ++ [')'])) [.word f, .group [e]] (.call f [e]) where
  spells := (Spells.word hf).group h.spells h.exprs .nil
  ne_nil := by simp
  plain := by simp [Item.isPlain]
  operand _ _ := rfl
  expr rest := if_neg hne

/-- A variable, a function and what else it is called on. -/
theorem method {v f : String} (hv : IsWord v) (hne : v ≠ "-") (hf : IsWord f)
    (h : SpellsPart x is e) :
    SpellsOperand (v.toList ++ '.' :: (f.toList ++ '(' :: (x ++ [')'])))
      [.word v, .mark '.', .word f, .group [e]] (.method v f [e]) where
  spells := (Spells.word hv).point ((Spells.word hf).group h.spells h.exprs .nil)
  ne_nil := by simp
  plain := by
    intro i hi
    simp only [List.mem_cons, List.not_mem_nil, or_false] at hi
    rcases hi with rfl | rfl | rfl | rfl <;> rfl
  operand _ _ := rfl
  expr rest := if_neg hne

end SpellsOperand

/-! ### Operations -/

/-- An expression in brackets is one operand. -/
theorem SpellsPart.round (h : SpellsPart x is e) :
    SpellsOperand ('(' :: (x ++ [')'])) [.group [e]] e where
  spells := h.spells.round h.exprs
  ne_nil := by simp
  plain := by simp [Item.isPlain]
  operand _ _ := rfl
  expr _ := rfl

theorem isWord_sign (op : BinaryOp) : IsWord op.sign := by
  cases op <;> exact ⟨by decide, by decide⟩

namespace SpellsOperand

theorem neg (h : SpellsOperand x is e) : SpellsPart ('-' :: ' ' :: x) (.word "-" :: is) (.neg e) where
  spells := (Spells.word (w := "-") ⟨by decide, by decide⟩).space h.spells
  ne_nil := by simp
  plain := List.forall_mem_cons.mpr ⟨rfl, h.plain⟩
  expr := by
    rw [expr?, if_pos rfl, h.whole]
    rfl

theorem not (h : SpellsOperand x is e) : SpellsPart ('~' :: ' ' :: x) (.mark '~' :: is) (.not e) where
  spells := Spells.nil.tilde (Spells.nil.space h.spells)
  ne_nil := by simp
  plain := List.forall_mem_cons.mpr ⟨rfl, h.plain⟩
  expr := by
    rw [expr?, if_pos rfl, h.whole]
    rfl

/-- Two operands with the sign of an operator between them. -/
theorem binary (h : SpellsOperand x is e) (op : BinaryOp) (h' : SpellsOperand y js e') :
    SpellsPart (x ++ ' ' :: (op.sign.toList ++ ' ' :: y)) (is ++ .word op.sign :: js)
      (.binary op e e') where
  spells := h.spells.space ((Spells.word (isWord_sign op)).space h'.spells)
  ne_nil := by simp
  plain := by
    refine List.forall_mem_append.mpr ⟨h.plain, List.forall_mem_cons.mpr ⟨rfl, h'.plain⟩⟩
  expr := by
    have hsign : operator? op.sign = some op := by cases op <;> decide
    rw [h.expr, infix?, h.operand _ (.inr ⟨_, _, rfl⟩)]
    -- with no second operand the sign would be the name of a parameter
    cases js with
    | nil => exact absurd rfl h'.ne_nil
    | cons j js =>
      simp only [hsign, h'.whole]
      rfl

/-- A parameter with its type. -/
theorem typed (h : SpellsOperand x is e) {name : String} (hname : IsWord name) :
    SpellsPart (x ++ ' ' :: name.toList) (is ++ [.word name]) (.typed e name) where
  spells := h.spells.space (.word hname)
  ne_nil := by simp
  plain := List.forall_mem_append.mpr ⟨h.plain, by simp [Item.isPlain]⟩
  expr := by rw [h.expr, infix?, h.operand _ (.inr ⟨_, _, rfl⟩)]

end SpellsOperand

/-! ### Tuples -/

/-- Texts that are read as some expressions. -/
def SpellsParts (parts : List String) (es : List Expr) : Prop :=
  List.Forall₂ (fun part e => ∃ is, SpellsPart part.toList is e) parts es

/-- Parts with commas between them are read as their expressions. -/
theorem SpellsParts.exists_intercalate {parts : List String} {es : List Expr} (hne : parts ≠ [])
    (h : SpellsParts parts es) :
    ∃ is, is ≠ [] ∧ Spells (String.intercalate ", " parts).toList is ∧ exprs? is = some es := by
  induction h with
  | nil => exact absurd rfl hne
  | @cons part e parts es hpart hrest ih =>
    obtain ⟨is, hpart⟩ := hpart
    cases parts with
    | nil =>
      cases hrest
      refine ⟨is, hpart.ne_nil, ?_, hpart.exprs⟩
      rw [String.intercalate_singleton]
      exact hpart.spells
    | cons next parts =>
      obtain ⟨js, hjs, hspells, hes⟩ := ih (by simp)
      refine ⟨is ++ .mark ',' :: js, by simp, ?_, exprs?_comma hpart.plain hjs hpart.expr hes⟩
      rw [String.intercalate_cons_cons]
      have hafter := Spells.nil.space hspells
      simpa using hpart.spells.comma hafter

/-- A tuple between two pieces is read as the group of its parts. -/
theorem Spells.tuple (hx : Spells x is) {parts : List String} {es : List Expr}
    (h : SpellsParts parts es) (hz : Spells z ks) :
    Spells (x ++ ((Func.tuple parts).toList ++ z)) (is ++ .group es :: ks) := by
  by_cases hne : parts = []
  · subst hne
    cases h
    exact hx.group .nil rfl hz
  · obtain ⟨js, -, hspells, hes⟩ := h.exists_intercalate hne
    simpa [Func.tuple] using hx.group hspells hes hz

/-- One part stands for itself, and several are a tensor. -/
theorem SpellsOperand.tuple {parts : List String} {es : List Expr} (h : SpellsParts parts es) :
    SpellsOperand (Func.tuple parts).toList [.group es] (.ofParts es) where
  spells := by simpa using Spells.nil.tuple h .nil
  ne_nil := by simp
  plain := by simp [Item.isPlain]
  operand _ _ := rfl
  expr _ := rfl

/-- Two expressions are a pair. -/
theorem SpellsOperand.pair (h : SpellsPart x is e) (h' : SpellsPart y js e') :
    SpellsOperand ('(' :: (x ++ ',' :: ' ' :: (y ++ [')']))) [.group [e, e']] (.tensor [e, e']) where
  spells := by
    have hparts := exprs?_comma h.plain h'.ne_nil h.expr h'.exprs
    have hpair := (h.spells.comma (Spells.nil.space h'.spells)).round hparts
    simpa using hpair
  ne_nil := by simp
  plain := by simp [Item.isPlain]
  operand _ _ := rfl
  expr _ := rfl

/-- Names are read as variables. -/
theorem spellsParts_names {names : List String} (h : ∀ name ∈ names, IsName name) :
    SpellsParts names (names.map .var) := by
  induction names with
  | nil => exact .nil
  | cons name rest ih =>
    exact .cons ⟨_, (SpellsOperand.name (h name List.mem_cons_self)).part⟩
      (ih fun other hother => h other (List.mem_cons_of_mem _ hother))

end Code
end MessageRouter
