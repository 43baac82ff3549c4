import MessageRouter.Func.Writer
import MessageRouter.Text.Blank
/-!
# `Proofs.Code.Token` — generated text as words and marks

* `Token`, `lex`: a line as words and marks; blanks stand between words.
* `tokens`: the tokens of a text without its remarks, which are lines that start with two semicolons.
* `lex_blank`, `lex_mark`, `lex_word`: a line is lexed part by part.
* `Adds`: a writer goes on by whole lines of some tokens.
-/
namespace MessageRouter
namespace Code

/-! ## Lines -/

/-- What all characters of a text have is decided along the text, and not by a search of all characters. -/
instance (priority := high) decidableForallMem (cs : List Char) (p : Char → Prop) [DecidablePred p] :
    Decidable (∀ c ∈ cs, p c) :=
  List.decidableBAll p cs

/-- A word, or a mark that stands for itself. -/
inductive Token where
  | word (text : String)
  | mark (c : Char)
  deriving DecidableEq, Repr

/-- The characters that stand for themselves. -/
def isMark (c : Char) : Bool := ['(', ')', '\x7b', '\x7d', ';', ',', '.', '~'].contains c

/-- The characters of words. -/
def isWordPart (c : Char) : Bool := !Text.isBlank c && !isMark c

/-- A word that ends. -/
def flush (word : List Char) : List Token :=
  if word.isEmpty then [] else [.word (String.ofList word)]

/-- The tokens of a line that goes on after the beginning of a word. -/
def lexFrom (word : List Char) : List Char → List Token
  | [] => flush word
  | c :: cs =>
    if Text.isBlank c then flush word ++ lexFrom [] cs
    else if isMark c then flush word ++ .mark c :: lexFrom [] cs
    else lexFrom (word ++ [c]) cs

/-- The tokens of a line. -/
def lex (line : List Char) : List Token := lexFrom [] line

theorem lexFrom_append_cons {c : Char} (hc : isWordPart c = false) (word x y : List Char) :
    lexFrom word (x ++ c :: y) = lexFrom word x ++ lex (c :: y) := by
  induction x generalizing word with
  | nil =>
    rw [List.nil_append, lex, lexFrom, lexFrom, lexFrom]
    by_cases hblank : Text.isBlank c = true
    · rw [if_pos hblank, if_pos hblank]
      rfl
    · have hmark : isMark c = true := by simpa [isWordPart, hblank] using hc
      rw [if_neg hblank, if_neg hblank, if_pos hmark, if_pos hmark]
      rfl
  | cons d x ih =>
    rw [List.cons_append, lexFrom, lexFrom]
    split
    · rw [ih, List.append_assoc]
    · split
      · rw [ih, List.append_assoc, List.cons_append]
      · exact ih _

/-- A blank stands between two parts of a line. -/
theorem lex_blank {c : Char} (hc : Text.isBlank c = true) (x y : List Char) :
    lex (x ++ c :: y) = lex x ++ lex y := by
  have hpart : isWordPart c = false := by simp [isWordPart, hc]
  have hcons : lex (c :: y) = lex y := by
    rw [lex, lexFrom, if_pos hc]
    rfl
  rw [lex, lexFrom_append_cons hpart, hcons]
  rfl

/-- A mark stands between two parts of a line and is a token itself. -/
theorem lex_mark {c : Char} (hc : isMark c = true) (hblank : Text.isBlank c = false)
    (x y : List Char) : lex (x ++ c :: y) = lex x ++ .mark c :: lex y := by
  have hpart : isWordPart c = false := by simp [isWordPart, hc]
  have hcons : lex (c :: y) = .mark c :: lex y := by
    rw [lex, lexFrom, if_neg (by simp [hblank]), if_pos hc]
    rfl
  rw [lex, lexFrom_append_cons hpart, hcons]
  rfl

@[simp] theorem lex_space (x y : List Char) : lex (x ++ ' ' :: y) = lex x ++ lex y :=
  lex_blank (by decide) x y

/-! ## Words -/

/-- A text that is a word. -/
structure IsWord (text : String) : Prop where
  ne_nil : text.toList ≠ []
  parts : ∀ c ∈ text.toList, isWordPart c = true

theorem lexFrom_of_parts {x : List Char} (hx : ∀ c ∈ x, isWordPart c = true) (word : List Char) :
    lexFrom word x = flush (word ++ x) := by
  induction x generalizing word with
  | nil => rw [List.append_nil, lexFrom]
  | cons c x ih =>
    have hc := hx c List.mem_cons_self
    have hboth : Text.isBlank c = false ∧ isMark c = false := by simpa [isWordPart] using hc
    rw [lexFrom, if_neg (by simp [hboth.1]), if_neg (by simp [hboth.2]),
      ih fun d hd => hx d (List.mem_cons_of_mem _ hd), List.append_assoc, List.singleton_append]

/-- A word is one token. -/
theorem lex_word {text : String} (h : IsWord text) : lex text.toList = [.word text] := by
  rw [lex, lexFrom_of_parts h.parts, List.nil_append, flush, if_neg (by simpa using h.ne_nil),
    String.ofList_toList]

/-! ## Texts -/

/-- A remark takes a whole line. -/
def isRemark (line : List Char) : Bool :=
  match line.dropWhile Text.isBlank with
  | ';' :: ';' :: _ => true
  | _ => false

def lexLine (line : List Char) : List Token := if isRemark line then [] else lex line

/-- The tokens of a text without its remarks. -/
def tokens (text : List Char) : List Token := (text.splitOn '\n').flatMap lexLine

@[simp] theorem tokens_nil : tokens [] = [] := rfl

/-- The end of a line stands between two parts of a text. -/
theorem tokens_newline (x y : List Char) : tokens (x ++ '\n' :: y) = tokens x ++ tokens y := by
  rw [tokens, List.splitOn_append_cons_self, List.flatMap_append]
  rfl

/-- A line is lexed as such. -/
theorem tokens_line {line : List Char} (h : '\n' ∉ line) : tokens line = lexLine line := by
  rw [tokens, List.splitOn_eq_singleton h, List.flatMap_singleton]

/-! ## Writers -/

/-- A writer goes on by whole lines of some tokens. -/
def Adds (ts : List Token) (w w' : Func.Writer) : Prop :=
  ∃ added : List Char, w'.text = w.text ++ String.ofList added ∧
    (∀ rest, tokens (added ++ rest) = ts ++ tokens rest)

namespace Adds

variable {ts us : List Token} {w w' w'' : Func.Writer}

theorem refl (w : Func.Writer) : Adds [] w w :=
  ⟨[], by simp, fun rest => by simp⟩

theorem trans (h : Adds ts w w') (h' : Adds us w' w'') : Adds (ts ++ us) w w'' := by
  obtain ⟨added, htext, htokens⟩ := h
  obtain ⟨added', htext', htokens'⟩ := h'
  refine ⟨added ++ added', ?_, fun rest => ?_⟩
  · rw [htext', htext, String.append_assoc, String.ofList_append]
  · rw [List.append_assoc, htokens, htokens', List.append_assoc]

/-- The depth of a writer does not count for what it has written. -/
theorem of_text_eq {v : Func.Writer} (h : Adds ts w w') (hv : v.text = w'.text) : Adds ts w v := by
  obtain ⟨added, htext, htokens⟩ := h
  exact ⟨added, hv.trans htext, htokens⟩

theorem of_text_eq_left {v : Func.Writer} (h : Adds ts w w') (hv : v.text = w.text) :
    Adds ts v w' := by
  obtain ⟨added, htext, htokens⟩ := h
  exact ⟨added, hv ▸ htext, htokens⟩

end Adds

/-- The margin of a line is blank. -/
theorem dropWhile_margin (depth : Nat) (line : List Char) :
    ((Func.Writer.margin depth).toList ++ line).dropWhile Text.isBlank =
      line.dropWhile Text.isBlank := by
  rw [Func.Writer.margin, String.toList_ofList]
  induction 4 * depth with
  | zero => rfl
  | succ n ih => simpa [List.replicate_succ, Text.isBlank] using ih

/-- The margin is part of its line. -/
theorem newline_notMem_margin {depth : Nat} {line : List Char} (h : '\n' ∉ line) :
    '\n' ∉ (Func.Writer.margin depth).toList ++ line := by
  rw [List.mem_append, not_or]
  refine ⟨?_, h⟩
  rw [Func.Writer.margin, String.toList_ofList]
  exact fun hmem => nomatch (List.eq_of_mem_replicate hmem)

theorem lex_margin (depth : Nat) (line : List Char) :
    lex ((Func.Writer.margin depth).toList ++ line) = lex line := by
  rw [Func.Writer.margin, String.toList_ofList]
  induction 4 * depth with
  | zero => rfl
  | succ n ih =>
    rw [List.replicate_succ, List.cons_append, ← ih]
    exact lex_space [] _

theorem lexLine_margin (depth : Nat) (line : List Char) :
    lexLine ((Func.Writer.margin depth).toList ++ line) = lexLine line := by
  unfold lexLine isRemark
  rw [dropWhile_margin, lex_margin]

/-- A line adds its tokens. -/
theorem adds_line {s : String} (h : '\n' ∉ s.toList) (w : Func.Writer) :
    Adds (lexLine s.toList) w (w.line s) := by
  refine ⟨(Func.Writer.margin w.depth).toList ++ s.toList ++ ['\n'], ?_, fun rest => ?_⟩
  · rw [Func.Writer.text_line]
    simp [String.ofList_append]
  · rw [List.append_assoc, List.singleton_append, tokens_newline,
      tokens_line (newline_notMem_margin h), lexLine_margin]

/-- An empty line adds nothing. -/
theorem adds_blank (w : Func.Writer) : Adds [] w w.blank :=
  ⟨['\n'], rfl, fun rest => tokens_newline [] rest⟩

end Code
end MessageRouter
