import Mathlib.Algebra.GroupWithZero.Nat
import Mathlib.Data.List.TakeWhile
import MessageRouter.Compilation
import MessageRouter.Proofs.Fallible
/-!
# `Proofs.Compilation.Separation` — the text of a program and those of its contracts

A newline stands in front of a contract's text wherever there is any text before it, and so also in front of an empty
text. A contract without text is not seen at the beginning of a program, and leaves a newline behind after that.

* `Compiled.assembled`: texts with newlines between them, from the first that is not empty on.
* `Program.compile_eq_ok_iff`, `Program.compile_eq_error_iff`: when a program has a text, and the fault otherwise.
* `Compiled.assembledText_eq_filter_iff`: when a text is that of the contracts that have one.
* `Compiled.assembledText_insert_of_empty`, `Compiled.assembledText_insert_of_ne`: what a contract without text adds.
* `Program.compile_separation`: all of this about the text of a program.
-/
namespace MessageRouter

namespace Compiled

/-! ## Texts in a row -/

/-- Texts in a row, with a newline between two of them, from the first on that is not empty. -/
def assembledText (texts : List String) : String :=
  "\n".intercalate (texts.dropWhile (·.isEmpty))

/-- Texts of contracts in a row, and how much they are together. -/
def assembled (parts : List Compiled) : Compiled :=
  let text := assembledText (parts.map (·.text))
  ⟨text, ⟨(parts.map (·.stats.contracts)).sum, (parts.map (·.stats.routers)).sum,
    (parts.map (·.stats.receivers)).sum, text.utf8ByteSize⟩⟩

theorem text_assembled (parts : List Compiled) :
    (assembled parts).text = assembledText (parts.map (·.text)) := rfl

/-- After some text every further one stands behind a newline. -/
theorem foldl_joinText_of_ne {before : String} (h : before ≠ "") (texts : List String) :
    texts.foldl joinText before = "\n".intercalate (before :: texts) := by
  induction texts generalizing before with
  | nil => simp
  | cons text rest ih =>
    have hjoin : joinText before text = before ++ "\n" ++ text := by
      simp [joinText, String.isEmpty_iff, h]
    have hne : joinText before text ≠ "" := by
      simp [hjoin]
    rw [List.foldl_cons, ih hne, hjoin, String.intercalate_cons_append, String.intercalate_cons_cons]

/-- At the beginning empty texts leave nothing behind. -/
theorem foldl_joinText_empty (texts : List String) : texts.foldl joinText "" = assembledText texts := by
  induction texts with
  | nil => rfl
  | cons text rest ih =>
    have hfirst : joinText "" text = text := rfl
    rw [List.foldl_cons, hfirst, assembledText]
    by_cases h : text = ""
    · subst h
      rw [ih, assembledText, List.dropWhile_cons_of_pos rfl]
    · rw [foldl_joinText_of_ne h, List.dropWhile_cons_of_neg (by simpa [String.isEmpty_iff] using h)]

theorem text_foldl_append (parts : List Compiled) (x : Compiled) :
    (parts.foldl append x).text = (parts.map (·.text)).foldl joinText x.text := by
  induction parts generalizing x with
  | nil => rfl
  | cons part rest ih => exact ih (x.append part)

/-- What is counted of texts in a row is the sum of what is counted of each. -/
theorem stats_foldl_append (parts : List Compiled) (x : Compiled) (hx : x.stats.outputBytes = x.text.utf8ByteSize) :
    (parts.foldl append x).stats =
      ⟨x.stats.contracts + (parts.map (·.stats.contracts)).sum,
        x.stats.routers + (parts.map (·.stats.routers)).sum,
        x.stats.receivers + (parts.map (·.stats.receivers)).sum,
        (parts.foldl append x).text.utf8ByteSize⟩ := by
  induction parts generalizing x with
  | nil => simp [← hx]
  | cons part rest ih =>
    rw [List.foldl_cons, ih (x.append part) rfl]
    simp [append, Nat.add_assoc]

theorem foldl_append_eq (parts : List Compiled) : parts.foldl append empty = assembled parts := by
  have htext : (parts.foldl append empty).text = assembledText (parts.map (·.text)) :=
    (text_foldl_append parts empty).trans (foldl_joinText_empty _)
  have hstats := stats_foldl_append parts empty rfl
  rw [htext] at hstats
  cases hfold : parts.foldl append empty with
  | mk text stats =>
    rw [hfold] at htext hstats
    subst htext hstats
    simp [assembled, empty]

/-! ## Texts that are empty -/

/-- A row is as long as its texts and the newlines between them. -/
theorem utf8ByteSize_intercalate {texts : List String} (h : texts ≠ []) :
    ("\n".intercalate texts).utf8ByteSize + 1 = (texts.map (·.utf8ByteSize)).sum + texts.length := by
  induction texts with
  | nil => exact absurd rfl h
  | cons text rest ih =>
    cases rest with
    | nil => simp
    | cons next rest =>
      have hrest := ih (List.cons_ne_nil _ _)
      have hnewline : "\n".utf8ByteSize = 1 := rfl
      rw [String.intercalate_cons_cons, String.utf8ByteSize_append, String.utf8ByteSize_append, hnewline,
        Nat.add_assoc, hrest]
      simp only [List.map_cons, List.sum_cons, List.length_cons]
      omega

/-- Empty texts are as long as none. -/
theorem sum_utf8ByteSize_filter (texts : List String) :
    ((texts.filter (!·.isEmpty)).map (·.utf8ByteSize)).sum = (texts.map (·.utf8ByteSize)).sum := by
  induction texts with
  | nil => rfl
  | cons text rest ih =>
    by_cases h : text = ""
    · subst h
      rw [List.filter_cons_of_neg (by simp), ih]
      simp
    · rw [List.filter_cons_of_pos (by simpa [String.isEmpty_iff] using h)]
      simp [ih]

/-- The row of some texts is that of those that are not empty exactly if no empty one comes after one that is not. -/
theorem assembledText_eq_filter_iff (texts : List String) :
    assembledText texts = "\n".intercalate (texts.filter (!·.isEmpty)) ↔
      texts.Pairwise fun text next => text ≠ "" → next ≠ "" := by
  induction texts with
  | nil => simp [assembledText]
  | cons text rest ih =>
    by_cases h : text = ""
    · subst h
      simpa [assembledText] using ih
    · have hnot : ¬text.isEmpty = true := by simpa [String.isEmpty_iff] using h
      rw [assembledText, List.dropWhile_cons_of_neg hnot, List.filter_cons_of_pos (by simpa using hnot),
        List.pairwise_cons]
      constructor
      · intro hsame
        -- a text that is left out would have brought a newline with it
        have hsize := congrArg (·.utf8ByteSize + 1) hsame
        rw [utf8ByteSize_intercalate (List.cons_ne_nil _ _), utf8ByteSize_intercalate (List.cons_ne_nil _ _)]
          at hsize
        simp only [List.map_cons, List.sum_cons, List.length_cons, sum_utf8ByteSize_filter] at hsize
        have hlength : (rest.filter (!·.isEmpty)).length = rest.length := by omega
        have hrest : ∀ next ∈ rest, next ≠ "" := by
          intro next hnext
          simpa [String.isEmpty_iff] using List.length_filter_eq_length_iff.mp hlength next hnext
        exact ⟨fun next hnext _ => hrest next hnext,
          List.pairwise_of_forall_mem_list fun _ _ next hnext _ => hrest next hnext⟩
      · rintro ⟨hrest, -⟩
        rw [List.filter_eq_self.mpr]
        intro next hnext
        simpa [String.isEmpty_iff] using hrest next hnext h

/-- An empty text that comes after empty ones only is not seen in a row. -/
theorem assembledText_insert_of_empty {before : List String} (h : ∀ text ∈ before, text = "")
    (after : List String) : assembledText (before ++ "" :: after) = assembledText (before ++ after) := by
  have hempty : ∀ text ∈ before, text.isEmpty = true := fun text htext => String.isEmpty_iff.mpr (h text htext)
  rw [assembledText, assembledText, List.dropWhile_append_of_pos hempty, List.dropWhile_append_of_pos hempty,
    List.dropWhile_cons_of_pos rfl]

/-- An empty text that comes after one that is not empty leaves a newline behind. -/
theorem assembledText_insert_of_ne {before : List String} (h : ∃ text ∈ before, text ≠ "")
    (after : List String) :
    ∃ front back, assembledText (before ++ after) = front ++ back ∧
      assembledText (before ++ "" :: after) = front ++ "\n" ++ back := by
  have hfirst : before.dropWhile (·.isEmpty) ≠ [] := by
    obtain ⟨text, htext, hne⟩ := h
    intro hnil
    exact hne (String.isEmpty_iff.mp (List.dropWhile_eq_nil_iff.mp hnil text htext))
  have happend (texts : List String) : (before ++ texts).dropWhile (·.isEmpty) =
      before.dropWhile (·.isEmpty) ++ texts := by
    rw [List.dropWhile_append, if_neg (by simpa using hfirst)]
  refine ⟨"\n".intercalate (before.dropWhile (·.isEmpty)), ?_⟩
  rw [assembledText, assembledText, happend, happend,
    String.intercalate_append_of_ne_nil hfirst (List.cons_ne_nil _ _)]
  cases after with
  | nil => exact ⟨"", by simp⟩
  | cons next rest =>
    refine ⟨"\n" ++ "\n".intercalate (next :: rest), ?_, ?_⟩
    · rw [String.intercalate_append_of_ne_nil hfirst (List.cons_ne_nil _ _), String.append_assoc]
    · rw [String.intercalate_cons_cons, String.empty_append]

end Compiled

/-! ## Programs -/

namespace Program

variable {p : Program} {limit : Nat} {o : Options} {out : Compiled} {fault : Fault}

/-- The contracts of a program have some texts, one after the other. -/
def HasParts (p : Program) (o : Options) (parts : List Compiled) : Prop :=
  List.Forall₂ (fun c part => c.compile p.registry o = .ok part) p.contracts parts

/-- A program has a text exactly if its contracts have texts that are within the limit together. -/
theorem compile_eq_ok_iff :
    p.compile limit o = .ok out ↔
      ∃ parts, p.HasParts o parts ∧ out = Compiled.assembled parts ∧ out.text.utf8ByteSize ≤ limit := by
  rw [compile, Fallible.bind_eq_ok_iff]
  refine exists_congr fun parts => and_congr Fallible.mapM_eq_ok_iff ?_
  rw [Compiled.foldl_append_eq]
  dsimp only
  split
  · next hlimit =>
    refine ⟨nofun, ?_⟩
    rintro ⟨rfl, hsize⟩
    exact absurd hlimit (Nat.not_lt_of_le hsize)
  · next hlimit =>
    constructor
    · intro h
      obtain rfl := Except.ok.inj h
      exact ⟨rfl, Nat.le_of_not_lt hlimit⟩
    · rintro ⟨rfl, -⟩
      rfl

/-- Otherwise the fault is that of the first contract without a text, or that of a text beyond the limit. -/
theorem compile_eq_error_iff :
    p.compile limit o = .error fault ↔
      (∃ before c after, p.contracts = before ++ c :: after ∧
        (∀ b ∈ before, ∃ part, b.compile p.registry o = .ok part) ∧ c.compile p.registry o = .error fault) ∨
      ∃ parts, p.HasParts o parts ∧ limit < (Compiled.assembled parts).text.utf8ByteSize ∧
        fault = .ofCause (.outputSize limit (Compiled.assembled parts).text.utf8ByteSize) := by
  rw [compile, Fallible.bind_eq_error_iff]
  refine or_congr Fallible.mapM_eq_error_iff (exists_congr fun parts => and_congr Fallible.mapM_eq_ok_iff ?_)
  rw [Compiled.foldl_append_eq]
  dsimp only
  split
  · next hlimit =>
    constructor
    · intro h
      exact ⟨hlimit, (Except.error.inj h).symm⟩
    · rintro ⟨-, rfl⟩
      rfl
  · next hlimit => exact ⟨nofun, fun h => absurd h.1 hlimit⟩

/-- A contract with a text can stand anywhere among others with texts. -/
theorem HasParts.insert {before after : List Contract} {first last : List Compiled} {c : Contract}
    {part : Compiled} (h : p.HasParts o (first ++ last)) (hcontracts : p.contracts = before ++ after)
    (hlength : first.length = before.length) (hpart : c.compile p.registry o = .ok part) :
    HasParts { p with contracts := before ++ c :: after } o (first ++ part :: last) := by
  unfold HasParts at h
  rw [hcontracts] at h
  have hfirst := List.forall₂_take_append _ _ _ h
  have hlast := List.forall₂_drop_append _ _ _ h
  rw [hlength, List.take_left] at hfirst
  rw [hlength, List.drop_left] at hlast
  exact List.rel_append hfirst (.cons hpart hlast)

/-- Contracts are compiled on their own. A program has a text exactly if each of its contracts has one and all of them
together are within the limit; otherwise its fault is that of the first contract without a text, or that of a text
beyond the limit. The text is that of the contracts whose texts are not empty, with an empty line between two of them,
exactly if no empty text comes after one that is not. A contract with an empty text can be added where there is no text
before it and nothing changes, and anywhere else it adds a newline. -/
theorem compile_separation (p : Program) (limit : Nat) (o : Options) :
    (∀ out, p.compile limit o = .ok out ↔
      ∃ parts, p.HasParts o parts ∧ out = Compiled.assembled parts ∧ out.text.utf8ByteSize ≤ limit) ∧
    (∀ fault, p.compile limit o = .error fault ↔
      (∃ before c after, p.contracts = before ++ c :: after ∧
        (∀ b ∈ before, ∃ part, b.compile p.registry o = .ok part) ∧ c.compile p.registry o = .error fault) ∨
      ∃ parts, p.HasParts o parts ∧ limit < (Compiled.assembled parts).text.utf8ByteSize ∧
        fault = .ofCause (.outputSize limit (Compiled.assembled parts).text.utf8ByteSize)) ∧
    (∀ parts, p.HasParts o parts →
      ((Compiled.assembled parts).text = "\n".intercalate ((parts.map (·.text)).filter (!·.isEmpty)) ↔
        parts.Pairwise fun part next => part.text ≠ "" → next.text ≠ "")) ∧
    ∀ before after c first last part, p.contracts = before ++ after → p.HasParts o (first ++ last) →
      first.length = before.length → c.compile p.registry o = .ok part → part.text = "" →
      HasParts { p with contracts := before ++ c :: after } o (first ++ part :: last) ∧
        ((∀ x ∈ first, x.text = "") → (Compiled.assembled (first ++ part :: last)).text =
          (Compiled.assembled (first ++ last)).text) ∧
        ((∃ x ∈ first, x.text ≠ "") → ∃ front back,
          (Compiled.assembled (first ++ last)).text = front ++ back ∧
          (Compiled.assembled (first ++ part :: last)).text = front ++ "\n" ++ back) := by
  refine ⟨fun _ => compile_eq_ok_iff, fun _ => compile_eq_error_iff, ?_, ?_⟩
  · intro parts _
    rw [← List.pairwise_map (f := Compiled.text) (R := fun text next => text ≠ "" → next ≠ "")]
    exact Compiled.assembledText_eq_filter_iff _
  · intro before after c first last part hcontracts hparts hlength hpart hempty
    -- the texts of the parts are all that counts, and the new one among them is empty
    have hwith : (Compiled.assembled (first ++ part :: last)).text =
        Compiled.assembledText (first.map (·.text) ++ "" :: last.map (·.text)) := by
      rw [Compiled.text_assembled, List.map_append, List.map_cons, hempty]
    have hwithout : (Compiled.assembled (first ++ last)).text =
        Compiled.assembledText (first.map (·.text) ++ last.map (·.text)) := by
      rw [Compiled.text_assembled, List.map_append]
    refine ⟨hparts.insert hcontracts hlength hpart, ?_, ?_⟩
    · intro hfirst
      rw [hwith, hwithout]
      exact Compiled.assembledText_insert_of_empty (List.forall_mem_map.mpr hfirst) _
    · rintro ⟨x, hx, hne⟩
      rw [hwith, hwithout]
      exact Compiled.assembledText_insert_of_ne ⟨x.text, List.mem_map_of_mem hx, hne⟩ _

end Program
end MessageRouter
