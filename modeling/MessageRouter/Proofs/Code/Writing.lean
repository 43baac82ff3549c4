import MessageRouter.Func.Function
import MessageRouter.Proofs.Code.Reading
/-!
# `Proofs.Code.Writing` — lines are read as statements

* `SpellsStmts`: items that are read as some statements in front of any others.
* `Wrote`: a writer goes on by lines that are read as some items.
* `SpellsStmt`: a line that is one statement, with one lemma for each kind of statement.
* `WroteStmts`: a writer goes on by lines that are read as some statements.
-/
namespace MessageRouter
namespace Code

variable {is js ks : List Item} {ss tt : List Stmt}

/-! ## Statements -/

/-- Items that do not go on with the other body of a branch. -/
def Clear (is : List Item) : Prop := ∀ w body rest, is ≠ .word w :: .block body :: rest

theorem Clear.nil : Clear [] := fun _ _ _ => by simp

/-- Items that are read as some statements in front of any others. -/
def SpellsStmts (is : List Item) (ss : List Stmt) : Prop :=
  ∀ rest, Clear rest →
    Clear (is ++ rest) ∧ stmtsFrom? [] (is ++ rest) = (stmtsFrom? [] rest).map (ss ++ ·)

/-- Plain items wait for the semicolon after them. -/
theorem stmtsFrom?_plain (h : ∀ i ∈ is, i.isPlain = true) (before rest : List Item) :
    stmtsFrom? before (is ++ .mark ';' :: rest) =
      (simple? (before ++ is)).bind fun s => (stmtsFrom? [] rest).map (s :: ·) := by
  induction is generalizing before with
  | nil =>
    rw [List.nil_append, List.append_nil, stmtsFrom?, if_pos rfl]
    cases simple? before <;> cases stmtsFrom? [] rest <;> rfl
  | cons i is ih =>
    have hrest := ih fun j hj => h j (List.mem_cons_of_mem _ hj)
    have hi := h i List.mem_cons_self
    have happend : before ++ i :: is = (before ++ [i]) ++ is := by simp
    rw [happend, ← hrest]
    cases i with
    | block body => exact nomatch hi
    | group parts => rw [List.cons_append, stmtsFrom?]
    | mark c =>
      have hc : c ≠ ';' := by
        rw [Item.isPlain, Bool.and_eq_true] at hi
        simpa using hi.1
      rw [List.cons_append, stmtsFrom?, if_neg hc]
    | word w =>
      -- no plain item is the body of a branch, so this is not the head of one
      have hblock : ∀ cond body tail, is ++ .mark ';' :: rest ≠ .group [cond] :: .block body :: tail := by
        intro cond body tail heq
        cases is with
        | nil => simp at heq
        | cons j is =>
          cases is with
          | nil => simp at heq
          | cons k is =>
            have hk := h k (by simp)
            simp only [List.cons_append, List.cons.injEq] at heq
            rw [heq.2.1] at hk
            exact nomatch hk
      rw [List.cons_append, stmtsFrom?]
      · exact fun _ _ _ _ _ heq => hblock _ _ _ heq
      · exact fun _ _ _ heq => hblock _ _ _ heq

namespace SpellsStmts

theorem nil : SpellsStmts [] [] := fun rest hrest => ⟨hrest, by simp⟩

theorem append (h : SpellsStmts is ss) (h' : SpellsStmts js tt) :
    SpellsStmts (is ++ js) (ss ++ tt) := by
  intro rest hrest
  obtain ⟨hclear, htail⟩ := h' rest hrest
  obtain ⟨hclear', hhead⟩ := h _ hclear
  rw [List.append_assoc]
  refine ⟨hclear', ?_⟩
  rw [hhead, htail, Option.map_map]
  congr 1
  funext us
  simp

/-- A statement ends at its semicolon. -/
theorem simple (h : ∀ i ∈ is, i.isPlain = true) {s : Stmt} (hs : simple? is = some s) :
    SpellsStmts (is ++ [.mark ';']) [s] := by
  intro rest hrest
  rw [List.append_assoc, List.singleton_append]
  refine ⟨?_, ?_⟩
  · intro w body tail heq
    cases is with
    | nil => simp at heq
    | cons i is =>
      cases is with
      | nil => simp at heq
      | cons j is =>
        have hj := h j (by simp)
        simp only [List.cons_append, List.cons.injEq] at heq
        rw [heq.2.1] at hj
        exact nomatch hj
  · rw [stmtsFrom?_plain h, List.nil_append, hs]
    rfl

/-- A branch with one body ends where nothing goes on with the other. -/
theorem branch (cond : Expr) (thenBody : List Stmt) :
    SpellsStmts [.word "if", .group [cond], .block thenBody] [.branch cond thenBody []] := by
  intro rest hrest
  refine ⟨fun w body tail heq => by simp at heq, ?_⟩
  simp only [List.cons_append, List.nil_append]
  rw [stmtsFrom?, if_pos ⟨rfl, rfl⟩]
  · exact fun w body tail heq => hrest w body tail heq

theorem branchElse (cond : Expr) (thenBody elseBody : List Stmt) :
    SpellsStmts
      [.word "if", .group [cond], .block thenBody, .word "else", .block elseBody]
      [.branch cond thenBody elseBody] := by
  intro rest hrest
  refine ⟨fun w body tail heq => by simp at heq, ?_⟩
  simp only [List.cons_append, List.nil_append]
  rw [stmtsFrom?, if_pos ⟨rfl, rfl, rfl⟩]

/-- Items that are read in front of others are read alone. -/
theorem stmts?_eq (h : SpellsStmts is ss) : stmts? is = some ss := by
  have hnil := (h [] .nil).2
  rw [List.append_nil] at hnil
  rw [stmts?, hnil, stmtsFrom?]
  simp

end SpellsStmts

/-! ## Lines -/

/-- The beginning of a line that is no remark. -/
def StartsLine (line : List Char) : Prop :=
  ∃ c rest, line = c :: rest ∧ Text.isBlank c = false ∧ c ≠ ';'

theorem StartsLine.of_isWord {w : String} (hw : IsWord w) {line more : List Char}
    (h : line = w.toList ++ more) : StartsLine line := by
  obtain ⟨hne, hparts⟩ := hw
  cases htext : w.toList with
  | nil => exact absurd htext hne
  | cons c cs =>
    have hc := hparts c (by simp [htext])
    refine ⟨c, cs ++ more, by rw [h, htext]; rfl, ?_, ?_⟩
    · simp only [isWordPart, Bool.and_eq_true, Bool.not_eq_true'] at hc
      exact hc.1
    · rintro rfl
      cases hc

theorem StartsLine.isRemark_eq_false {line : List Char} (h : StartsLine line) (more : List Char) :
    isRemark (line ++ more) = false := by
  obtain ⟨c, rest, rfl, hblank, hc⟩ := h
  rw [isRemark, List.cons_append, List.dropWhile_cons, if_neg (by simp [hblank])]
  split
  · next heq => exact absurd (List.cons.inj heq).1 hc
  · rfl

/-- A writer goes on by lines that are read as some items. -/
def Wrote (w w' : Func.Writer) (is : List Item) : Prop := ∃ ts, Adds ts w w' ∧ Reads ts is

/-- A line that spells some items and is no remark. -/
structure SpellsLine (s : String) (is : List Item) : Prop where
  spells : Spells s.toList is
  starts : StartsLine s.toList

namespace Wrote

variable {w w' w'' inner other : Func.Writer}

theorem refl (w : Func.Writer) : Wrote w w [] := ⟨[], .refl w, .nil⟩

theorem trans (h : Wrote w w' is) (h' : Wrote w' w'' js) : Wrote w w'' (is ++ js) := by
  obtain ⟨ts, hadds, hreads⟩ := h
  obtain ⟨us, hadds', hreads'⟩ := h'
  exact ⟨ts ++ us, hadds.trans hadds', hreads.append hreads'⟩

theorem line {s : String} (h : SpellsLine s is) (w : Func.Writer) : Wrote w (w.line s) is := by
  refine ⟨lexLine s.toList, adds_line h.spells.oneLine w, ?_⟩
  have hremark := h.starts.isRemark_eq_false []
  rw [List.append_nil] at hremark
  rw [lexLine, if_neg (by simp [hremark])]
  exact h.spells.reads

/-- A remark is not read. -/
theorem remark {s : String} (h : '\n' ∉ s.toList) (emitComments : Bool) (w : Func.Writer) :
    Wrote w (Func.Function.writeRemark emitComments s w) [] := by
  cases emitComments with
  | false => exact .refl w
  | true =>
    have htext : (";; " ++ s).toList = ';' :: ';' :: ' ' :: s.toList := by simp
    refine ⟨lexLine (";; " ++ s).toList, adds_line (by simp [htext, h]) w, ?_⟩
    rw [htext]
    exact .nil

theorem blank (w : Func.Writer) : Wrote w w.blank [] := ⟨[], adds_blank w, .nil⟩

/-! ### Blocks -/

/-- The line that opens a block. -/
theorem toList_opening {header : String} (h : StartsLine header.toList) :
    (Func.Writer.opening header).toList = header.toList ++ [' ', '\x7b'] := by
  obtain ⟨c, rest, hheader, -, -⟩ := h
  have hempty : header.isEmpty = false := by
    rw [Bool.eq_false_iff]
    intro hempty
    rw [String.isEmpty_iff.mp hempty] at hheader
    exact nomatch hheader
  rw [Func.Writer.opening, hempty]
  simp

theorem adds_openBlock {header : String} (h : SpellsLine header is) (w : Func.Writer) :
    Adds (lex header.toList ++ [.mark '\x7b']) w (w.openBlock header) := by
  have htext := toList_opening h.starts
  have hline : '\n' ∉ (Func.Writer.opening header).toList := by
    rw [htext]
    simp [h.spells.oneLine]
  have hlex : lexLine (Func.Writer.opening header).toList = lex header.toList ++ [.mark '\x7b'] := by
    rw [htext, lexLine, if_neg (by simp [h.starts.isRemark_eq_false])]
    exact lex_space header.toList ['\x7b']
  rw [← hlex]
  exact (adds_line hline w).of_text_eq rfl

theorem adds_closeBlock (w : Func.Writer) : Adds [.mark '\x7d'] w w.closeBlock :=
  (adds_line (s := "\x7d") (by decide) { w with depth := w.depth - 1 }).of_text_eq_left rfl

theorem adds_elseBranch (w : Func.Writer) :
    Adds [.mark '\x7d', .word "else", .mark '\x7b'] w w.elseBranch :=
  ((adds_line (s := "\x7d else \x7b") (by decide) { w with depth := w.depth - 1 }).of_text_eq_left
    rfl).of_text_eq rfl

/-- A block is read as its header and its statements. -/
theorem block {header : String} (h : SpellsLine header is)
    (hinner : Wrote (w.openBlock header) inner js) {body : List Stmt} (hbody : stmts? js = some body)
    (hother : other.text = inner.text) : Wrote w other.closeBlock (is ++ [.block body]) := by
  obtain ⟨ts, hadds, hreads⟩ := hinner
  refine ⟨_, ((adds_openBlock h w).trans (hadds.of_text_eq hother)).trans (adds_closeBlock other), ?_⟩
  have hblock := h.spells.reads.append (hreads.block hbody)
  simpa using hblock

/-- A branch with two bodies is read as its condition and its bodies. -/
theorem blockElse {header : String} (h : SpellsLine header is)
    {between : Func.Writer} (hthen : Wrote (w.openBlock header) between js) {thenBody : List Stmt}
    (hthenBody : stmts? js = some thenBody) (helse : Wrote between.elseBranch inner ks)
    {elseBody : List Stmt} (helseBody : stmts? ks = some elseBody) (hother : other.text = inner.text) :
    Wrote w other.closeBlock (is ++ [.block thenBody, .word "else", .block elseBody]) := by
  obtain ⟨ts, hadds, hreads⟩ := hthen
  obtain ⟨us, hadds', hreads'⟩ := helse
  refine ⟨_, ((((adds_openBlock h w).trans hadds).trans (adds_elseBranch between)).trans
    (hadds'.of_text_eq hother)).trans (adds_closeBlock other), ?_⟩
  have hblocks := h.spells.reads.append ((hreads.block hthenBody).append
    ((Reads.word "else").append (hreads'.block helseBody)))
  simpa using hblocks

end Wrote

/-! ## Lines of statements -/

/-- A declaration starts with the word for it, or with a type. -/
theorem simple?_declaration {w : String} (hw : w = "var" ∨ w = "int") (rest : List Item) :
    simple? (.word w :: rest) = declaration? rest := by
  have hreturn : w ≠ "return" := by rcases hw with rfl | rfl <;> decide
  have hthrow : w ≠ "throw" := by rcases hw with rfl | rfl <;> decide
  show (if w = "return" then _ else if w = "throw" then _ else _) = _
  rw [if_neg hreturn, if_neg hthrow, if_pos hw]

/-- A statement that starts with none of these words is about a variable. -/
theorem simple?_assignment {w : String} (h : w ∉ ["return", "throw", "var", "int"])
    (rest : List Item) : simple? (.word w :: rest) = assignment? w rest := by
  simp only [List.mem_cons, List.not_mem_nil, or_false, not_or] at h
  obtain ⟨hreturn, hthrow, hvar, hint⟩ := h
  show (if w = "return" then _ else if w = "throw" then _ else _) = _
  rw [if_neg hreturn, if_neg hthrow, if_neg (not_or.mpr ⟨hvar, hint⟩)]

/-- A line that is one statement. -/
structure SpellsStmt (line : List Char) (s : Stmt) : Prop where
  starts : StartsLine line
  exists_items : ∃ is, Spells line (is ++ [.mark ';']) ∧ (∀ i ∈ is, i.isPlain = true) ∧
    simple? is = some s

namespace SpellsStmt

variable {x y : List Char} {e : Expr} {s : Stmt}

/-- A statement starts with a word and ends with a semicolon. -/
theorem of_word {w : String} (hw : IsWord w) (h : Spells (w.toList ++ x) (.word w :: is))
    (hplain : ∀ i ∈ is, i.isPlain = true) (hs : simple? (.word w :: is) = some s) :
    SpellsStmt (w.toList ++ (x ++ [';'])) s where
  starts := .of_isWord hw rfl
  exists_items := by
    refine ⟨.word w :: is, ?_, List.forall_mem_cons.mpr ⟨rfl, hplain⟩, hs⟩
    simpa using h.semicolon

/-- A word after another one. -/
theorem spells_words {w : String} (hw : IsWord w) (h : Spells x is) :
    Spells (w.toList ++ ' ' :: x) (.word w :: is) :=
  (Spells.word hw).space h

theorem equals : IsWord "=" := ⟨by decide, by decide⟩

/-- An expression is no call that changes a variable. -/
theorem expr?_modify (v f : String) (args : List Expr) :
    expr? [.word v, .mark '~', .word f, .group args] = none := by
  show (if v = "-" then _ else _) = _
  split <;> rfl

theorem declaration?_eq (name : String) (h : expr? is = some e) :
    declaration? (.word name :: .word "=" :: is) = some (.declare [name] e) := by
  by_cases hcall : ∃ v c f args, is = [.word v, .mark c, .word f, .group args]
  · obtain ⟨v, c, f, args, rfl⟩ := hcall
    have hc : c ≠ '~' := by
      rintro rfl
      rw [expr?_modify] at h
      exact nomatch h
    show (if c = '~' then _ else (expr? _).map _) = _
    rw [if_neg hc, h]
    rfl
  · rw [declaration?, if_pos rfl, h]
    · rfl
    · exact fun v c f args heq => hcall ⟨v, c, f, args, heq⟩

theorem declare {keyword : String} (hkeyword : keyword = "var" ∨ keyword = "int") {name : String}
    (hname : IsWord name) (h : SpellsPart x is e) :
    SpellsStmt (keyword.toList ++ (' ' :: (name.toList ++ ' ' :: '=' :: ' ' :: x) ++ [';']))
      (.declare [name] e) := by
  have hword : IsWord keyword := by rcases hkeyword with rfl | rfl <;> exact ⟨by decide, by decide⟩
  refine .of_word hword
    (spells_words hword (spells_words hname (spells_words equals h.spells)))
    (List.forall_mem_cons.mpr ⟨rfl, List.forall_mem_cons.mpr ⟨rfl, h.plain⟩⟩) ?_
  rw [simple?_declaration hkeyword, declaration?_eq name h.expr]

theorem mapM_name? (names : List String) :
    (names.map Expr.var).mapM Expr.name? = some names := by
  induction names with
  | nil => rfl
  | cons name rest ih =>
    rw [List.map_cons, List.mapM_cons, ih]
    rfl

/-- Several names take a value apart. -/
theorem unpack {names : List String} (hnames : ∀ name ∈ names, IsName name) (h : SpellsPart x is e) :
    SpellsStmt ("var".toList ++ (' ' :: ((Func.tuple names).toList ++ ' ' :: '=' :: ' ' :: x) ++ [';']))
      (.declare names e) := by
  have hvar : IsWord "var" := ⟨by decide, by decide⟩
  refine .of_word hvar (spells_words hvar
    ((SpellsOperand.tuple (spellsParts_names hnames)).spells.space (spells_words equals h.spells)))
    (List.forall_mem_cons.mpr ⟨rfl, List.forall_mem_cons.mpr ⟨rfl, h.plain⟩⟩) ?_
  rw [simple?_declaration (.inl rfl), List.singleton_append, declaration?, if_pos rfl, mapM_name?,
    h.expr]
  rfl

theorem assign {name : String} (hname : IsWord name) (hne : name ∉ ["return", "throw", "var", "int"])
    (h : SpellsPart x is e) :
    SpellsStmt (name.toList ++ (' ' :: '=' :: ' ' :: x ++ [';'])) (.assign name e) := by
  refine .of_word hname (spells_words hname (spells_words equals h.spells))
    (List.forall_mem_cons.mpr ⟨rfl, h.plain⟩) ?_
  rw [simple?_assignment hne, assignment?, if_pos rfl, h.expr]
  rfl

/-- A call that changes a variable. -/
theorem modify {v f : String} (hv : IsWord v) (hne : v ∉ ["return", "throw", "var", "int"])
    (hf : IsWord f) {args : List Expr} (h : Spells x is) (hargs : exprs? is = some args) :
    SpellsStmt (v.toList ++ ('~' :: (f.toList ++ '(' :: (x ++ [')'])) ++ [';']))
      (.modify none v f args) := by
  have hcall := (Spells.word hv).tilde ((Spells.word hf).group h hargs .nil)
  have hplain : ∀ i ∈ [Item.mark '~', .word f, .group args], i.isPlain = true := by
    simp [Item.isPlain]
  refine .of_word hv hcall hplain ?_
  rw [simple?_assignment hne]
  rfl

/-- A call that changes a variable, with a name for its result. -/
theorem modifyInto {name v f : String} (hname : IsWord name) (hv : IsWord v) (hf : IsWord f) :
    SpellsStmt ("var".toList ++ (' ' :: (name.toList ++ ' ' :: '=' :: ' ' ::
        (v.toList ++ '~' :: (f.toList ++ ['(', ')']))) ++ [';']))
      (.modify (some name) v f []) := by
  have hvar : IsWord "var" := ⟨by decide, by decide⟩
  have hcall := (Spells.word hv).tilde ((Spells.word hf).group .nil rfl .nil)
  refine .of_word hvar (spells_words hvar (spells_words hname (spells_words equals hcall))) ?_ ?_
  · simp [Item.isPlain]
  · rw [simple?_declaration (.inl rfl)]
    rfl

theorem throw (h : SpellsPart x is e) :
    SpellsStmt ("throw".toList ++ ('(' :: (x ++ [')']) ++ [';'])) (.throw e) := by
  have hword : IsWord "throw" := ⟨by decide, by decide⟩
  exact .of_word hword ((Spells.word hword).group h.spells h.exprs .nil) (by simp [Item.isPlain]) rfl

theorem ret (h : SpellsPart x is e) :
    SpellsStmt ("return".toList ++ (' ' :: x ++ [';'])) (.ret e) := by
  have hword : IsWord "return" := ⟨by decide, by decide⟩
  refine .of_word hword (spells_words hword h.spells) h.plain ?_
  show (expr? is).map Stmt.ret = _
  rw [h.expr]
  rfl

end SpellsStmt

/-- A line that opens a branch. -/
theorem spellsLine_if {header : String} {x : List Char} {cond : Expr} (h : SpellsPart x is cond)
    (hheader : header.toList = "if".toList ++ ' ' :: '(' :: (x ++ [')'])) :
    SpellsLine header [.word "if", .group [cond]] := by
  have hword : IsWord "if" := ⟨by decide, by decide⟩
  constructor
  · rw [hheader]
    exact SpellsStmt.spells_words hword h.round.spells
  · exact .of_isWord hword hheader

/-! ## Writing statements -/

/-- A writer goes on by lines that are read as some statements. -/
def WroteStmts (w w' : Func.Writer) (ss : List Stmt) : Prop := ∃ is, Wrote w w' is ∧ SpellsStmts is ss

namespace WroteStmts

variable {w w' w'' inner other : Func.Writer}

theorem refl (w : Func.Writer) : WroteStmts w w [] := ⟨[], .refl w, .nil⟩

theorem trans (h : WroteStmts w w' ss) (h' : WroteStmts w' w'' tt) :
    WroteStmts w w'' (ss ++ tt) := by
  obtain ⟨is, hwrote, hspells⟩ := h
  obtain ⟨js, hwrote', hspells'⟩ := h'
  exact ⟨is ++ js, hwrote.trans hwrote', hspells.append hspells'⟩

theorem line {text : String} {s : Stmt} (h : SpellsStmt text.toList s) (w : Func.Writer) :
    WroteStmts w (w.line text) [s] := by
  obtain ⟨is, hspells, hplain, hs⟩ := h.exists_items
  exact ⟨_, .line ⟨hspells, h.starts⟩ w, .simple hplain hs⟩

theorem remark {text : String} (h : '\n' ∉ text.toList) (emitComments : Bool) (w : Func.Writer) :
    WroteStmts w (Func.Function.writeRemark emitComments text w) [] :=
  ⟨[], .remark h emitComments w, .nil⟩

theorem blank (w : Func.Writer) : WroteStmts w w.blank [] := ⟨[], .blank w, .nil⟩

/-- A branch with one body is a block. -/
theorem branch {header : String} {cond : Expr} (h : SpellsLine header [.word "if", .group [cond]])
    (hinner : WroteStmts (w.openBlock header) inner ss) (hother : other.text = inner.text) :
    WroteStmts w other.closeBlock [.branch cond ss []] := by
  obtain ⟨is, hwrote, hspells⟩ := hinner
  exact ⟨_, .block h hwrote hspells.stmts?_eq hother, .branch cond ss⟩

theorem branchElse {header : String} {cond : Expr}
    (h : SpellsLine header [.word "if", .group [cond]]) {between : Func.Writer}
    (hthen : WroteStmts (w.openBlock header) between ss)
    (helse : WroteStmts between.elseBranch inner tt) (hother : other.text = inner.text) :
    WroteStmts w other.closeBlock [.branch cond ss tt] := by
  obtain ⟨is, hwrote, hspells⟩ := hthen
  obtain ⟨js, hwrote', hspells'⟩ := helse
  exact ⟨_, .blockElse h hwrote hspells.stmts?_eq hwrote' hspells'.stmts?_eq hother,
    .branchElse cond ss tt⟩

end WroteStmts

end Code
end MessageRouter
