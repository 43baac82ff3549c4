import Mathlib.Data.List.SplitBy
import MessageRouter.Proofs.Code.Writing
import MessageRouter.Proofs.Fallible
/-!
# `Proofs.Code.Remarks` — texts with and without remarks

* `lines`, `withoutRemarks`: a text without its lines that are remarks.
* `IsCodeLine`: one line that is no remark.
* `IsBare`: of two writers the second has written what the first has, but for remarks. Each way to go on by a line or
  a block keeps this, and so do the remarks of the first.
* `KeepsBare`: two ways of writing that do not fail and keep this.
-/
namespace MessageRouter
namespace Code

/-! ## Texts -/

/-- The lines of a text, each with its end. -/
def lines (text : List Char) : List (List Char) := text.splitBy fun c _ => c != '\n'

/-- A text without its lines that are remarks. -/
def withoutRemarks (text : List Char) : List Char :=
  ((lines text).filter fun line => !isRemark line).flatten

/-- The end of a line stands between two parts of a text. -/
theorem lines_newline {line : List Char} (h : '\n' ∉ line) (rest : List Char) :
    lines (line ++ '\n' :: rest) = (line ++ ['\n']) :: lines rest := by
  -- no character but the last ends the line, and the last one does
  have hchain : (line ++ ['\n']).IsChain fun c _ => (c != '\n') = true := by
    induction line with
    | nil => exact List.isChain_singleton _
    | cons c line ih =>
      rw [List.mem_cons, not_or] at h
      rw [List.cons_append, List.isChain_cons]
      exact ⟨fun _ _ => by simpa using Ne.symm h.1, ih h.2⟩
  have hends : ∀ x ∈ (line ++ ['\n']).getLast?, ∀ y ∈ rest.head?, (x != '\n') = false := by
    intro x hx _ _
    rw [List.getLast?_concat, Option.mem_some_iff] at hx
    rw [← hx]
    rfl
  rw [lines, lines, List.append_cons, List.splitBy_append hends,
    List.splitBy_of_isChain (by simp) hchain, List.singleton_append]

/-- A remark is left out with its end. -/
theorem withoutRemarks_remark {line : List Char} (h : '\n' ∉ line)
    (hremark : isRemark (line ++ ['\n']) = true) (rest : List Char) :
    withoutRemarks (line ++ '\n' :: rest) = withoutRemarks rest := by
  rw [withoutRemarks, lines_newline h, List.filter_cons_of_neg (by simp [hremark])]
  rfl

/-- Another line is kept. -/
theorem withoutRemarks_line {line : List Char} (h : '\n' ∉ line)
    (hremark : isRemark (line ++ ['\n']) = false) (rest : List Char) :
    withoutRemarks (line ++ '\n' :: rest) = line ++ '\n' :: withoutRemarks rest := by
  rw [withoutRemarks, lines_newline h, List.filter_cons_of_pos (by simp [hremark]),
    List.flatten_cons, List.append_assoc]
  rfl

/-! ## Lines -/

/-- One line that is no remark. -/
structure IsCodeLine (s : String) : Prop where
  oneLine : '\n' ∉ s.toList
  starts : StartsLine s.toList

theorem SpellsLine.isCodeLine {s : String} {is : List Item} (h : SpellsLine s is) : IsCodeLine s :=
  ⟨h.spells.oneLine, h.starts⟩

theorem SpellsStmt.isCodeLine {text : String} {s : Stmt} (h : SpellsStmt text.toList s) :
    IsCodeLine text := by
  obtain ⟨is, hspells, -⟩ := h.exists_items
  exact ⟨hspells.oneLine, h.starts⟩

/-- What opens a block is a line as its header is. -/
theorem IsCodeLine.opening {header : String} (h : IsCodeLine header) :
    IsCodeLine (Func.Writer.opening header) := by
  have htext := Wrote.toList_opening h.starts
  constructor
  · rw [htext]
    simp [h.oneLine]
  · obtain ⟨c, rest, hheader, hblank, hc⟩ := h.starts
    rw [htext, hheader]
    exact ⟨c, _, rfl, hblank, hc⟩

/-! ## Writers -/

/-- Two writers are at one depth, and the second has written what the first has, but for remarks. -/
structure IsBare (full bare : Func.Writer) : Prop where
  depth : bare.depth = full.depth
  text : ∀ rest, withoutRemarks (full.text.toList ++ rest) = bare.text.toList ++ withoutRemarks rest

namespace IsBare

variable {full bare : Func.Writer}

/-- What the second has written is the whole text of the first without its remarks. -/
theorem withoutRemarks_eq (h : IsBare full bare) : withoutRemarks full.text.toList = bare.text.toList := by
  have htext := h.text []
  rwa [List.append_nil, show withoutRemarks [] = [] from rfl, List.append_nil] at htext

theorem empty : IsBare .empty .empty := ⟨rfl, fun _ => rfl⟩

theorem setDepth (h : IsBare full bare) {m n : Nat} (hdepth : n = m) :
    IsBare { full with depth := m } { bare with depth := n } :=
  ⟨hdepth, h.text⟩

/-- Both go on by the same line. -/
theorem line (h : IsBare full bare) {s : String} (hs : IsCodeLine s) :
    IsBare (full.line s) (bare.line s) := by
  refine ⟨h.depth, fun rest => ?_⟩
  -- whether a line is a remark is seen after its margin
  have hremark : isRemark ((Func.Writer.margin full.depth).toList ++ s.toList ++ ['\n']) = false := by
    rw [List.append_assoc, isRemark, dropWhile_margin]
    exact hs.starts.isRemark_eq_false ['\n']
  have hline := withoutRemarks_line (newline_notMem_margin hs.oneLine) hremark rest
  rw [Func.Writer.text_line, Func.Writer.text_line, h.depth, String.toList_append, String.toList_append,
    List.append_assoc, h.text]
  simpa using hline

/-- Only the first goes on by a remark. -/
theorem remark (h : IsBare full bare) {s : String} (hs : '\n' ∉ s.toList) :
    IsBare (Func.Function.writeRemark true s full) (Func.Function.writeRemark false s bare) := by
  have htext : (";; " ++ s).toList = ';' :: ';' :: ' ' :: s.toList := by simp
  have hline : '\n' ∉ (";; " ++ s).toList := by simp [htext, hs]
  have hremark :
      isRemark ((Func.Writer.margin full.depth).toList ++ (";; " ++ s).toList ++ ['\n']) = true := by
    rw [List.append_assoc, isRemark, dropWhile_margin, htext]
    rfl
  refine ⟨h.depth, fun rest => ?_⟩
  have hrest := withoutRemarks_remark (newline_notMem_margin hline) hremark rest
  show withoutRemarks ((full.line (";; " ++ s)).text.toList ++ rest) = _
  rw [Func.Writer.text_line, String.toList_append, List.append_assoc, h.text]
  simpa [Func.Function.writeRemark] using hrest

theorem blank (h : IsBare full bare) : IsBare full.blank bare.blank := by
  refine ⟨h.depth, fun rest => ?_⟩
  have hline := @withoutRemarks_line [] (by simp) rfl rest
  rw [Func.Writer.blank, Func.Writer.blank, String.toList_append, String.toList_append, List.append_assoc,
    h.text]
  simpa using hline

/-! ### Blocks -/

theorem isCodeLine_close : IsCodeLine "\x7d" := ⟨by decide, '\x7d', _, rfl, rfl, by decide⟩

theorem isCodeLine_else : IsCodeLine "\x7d else \x7b" := ⟨by decide, '\x7d', _, rfl, rfl, by decide⟩

theorem openBlock (h : IsBare full bare) {header : String} (hheader : IsCodeLine header) :
    IsBare (full.openBlock header) (bare.openBlock header) :=
  (h.line hheader.opening).setDepth (congrArg (· + 1) h.depth)

theorem closeBlock (h : IsBare full bare) : IsBare full.closeBlock bare.closeBlock :=
  (h.setDepth (congrArg (· - 1) h.depth)).line isCodeLine_close

theorem elseBranch (h : IsBare full bare) : IsBare full.elseBranch bare.elseBranch := by
  have hdepth : bare.depth - 1 = full.depth - 1 := congrArg (· - 1) h.depth
  exact ((h.setDepth hdepth).line isCodeLine_else).setDepth (congrArg (· + 1) hdepth)

theorem block (h : IsBare full bare) {header : String} (hheader : IsCodeLine header)
    {f g : Func.Writer → Func.Writer} (hbody : ∀ {full bare}, IsBare full bare → IsBare (f full) (g bare)) :
    IsBare (full.block header f) (bare.block header g) :=
  ((hbody (h.openBlock hheader)).setDepth (congrArg (· + 1) h.depth)).closeBlock

end IsBare

/-! ## Writing that may fail -/

/-- Two ways of writing that do not fail, after which the second has still written what the first has, but for
remarks. -/
def KeepsBare {ε : Type} (x y : Func.Writing ε Unit) : Prop :=
  ∀ full bare : Func.Writer, IsBare full bare →
    ∃ full' bare', x full = .ok () full' ∧ y bare = .ok () bare' ∧ IsBare full' bare'

namespace KeepsBare

variable {ε : Type} {x x' y y' : Func.Writing ε Unit}

theorem nothing : KeepsBare (pure () : Func.Writing ε Unit) (pure ()) :=
  fun _ _ h => ⟨_, _, rfl, rfl, h⟩

/-- One after the other. -/
theorem bind (h : KeepsBare x y) (h' : KeepsBare x' y') :
    KeepsBare (x >>= fun _ => x') (y >>= fun _ => y') := by
  intro full bare hbare
  obtain ⟨full₁, bare₁, hx, hy, hbare⟩ := h _ _ hbare
  obtain ⟨full₂, bare₂, hx', hy', hbare⟩ := h' _ _ hbare
  exact ⟨full₂, bare₂, Fallible.stateful_bind_eq_ok_iff.mpr ⟨(), full₁, hx, hx'⟩,
    Fallible.stateful_bind_eq_ok_iff.mpr ⟨(), bare₁, hy, hy'⟩, hbare⟩

theorem emit {f g : Func.Writer → Func.Writer}
    (h : ∀ {full bare}, IsBare full bare → IsBare (f full) (g bare)) :
    KeepsBare (Func.Writing.emit f : Func.Writing ε Unit) (Func.Writing.emit g) :=
  fun _ _ hbare => ⟨_, _, rfl, rfl, h hbare⟩

theorem line {s : String} (hs : IsCodeLine s) :
    KeepsBare (Func.Writing.line s : Func.Writing ε Unit) (Func.Writing.line s) :=
  emit fun h => h.line hs

theorem block {header : String} (hheader : IsCodeLine header) (h : KeepsBare x y) :
    KeepsBare (Func.Writing.block header x) (Func.Writing.block header y) := by
  intro full bare hbare
  obtain ⟨inner, inner', hx, hy, hinner⟩ := h _ _ (hbare.openBlock hheader)
  refine ⟨_, _, ?_, ?_, (hinner.setDepth (congrArg (· + 1) hbare.depth)).closeBlock⟩
  · rw [Func.Writing.block, hx]
  · rw [Func.Writing.block, hy]

/-- So it is with the elements of a list, each written in both ways. -/
theorem forM {α : Type} {f g : α → Func.Writing ε Unit} {xs : List α}
    (h : ∀ x ∈ xs, KeepsBare (f x) (g x)) : KeepsBare (xs.forM f) (xs.forM g) := by
  induction xs with
  | nil => exact nothing
  | cons x rest ih =>
    obtain ⟨hfirst, hrest⟩ := List.forall_mem_cons.mp h
    exact hfirst.bind (ih hrest)

end KeepsBare

end Code
end MessageRouter
