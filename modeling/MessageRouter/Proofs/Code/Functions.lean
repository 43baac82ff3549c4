import MessageRouter.Proofs.Code.Header
/-!
# `Proofs.Code.Functions` — a text of several functions

* `functions?`, `functionsOfText?`: the functions that stand one after the other in a text.
* `SpellsFunctions`: items that are read as some functions, whatever comes after them.
* `WroteFunctions`: lines that are read so.
* `SpellsText`: a text that is read so; texts may be put one after the other.
-/
namespace MessageRouter
namespace Code

/-- The functions that some items spell. -/
def functions? : List Item → Option (List Function)
  | [] => some []
  | type :: name :: parameters :: purity :: inlining :: body :: rest => do
    let f ← Function.ofItems? [type, name, parameters, purity, inlining, body]
    return f :: (← functions? rest)
  | _ => none

/-- The functions that a text spells. -/
def functionsOfText? (text : String) : Option (List Function) :=
  (read [] [] (tokens text.toList)).bind functions?

variable {is js : List Item} {fs gs : List Function} {f : Function}

/-! ## Items -/

/-- Items that are read as some functions, whatever comes after them. -/
def SpellsFunctions (is : List Item) (fs : List Function) : Prop :=
  ∀ rest, functions? (is ++ rest) = (functions? rest).map (fs ++ ·)

namespace SpellsFunctions

theorem nil : SpellsFunctions [] [] := fun rest => by simp

theorem append (h : SpellsFunctions is fs) (h' : SpellsFunctions js gs) :
    SpellsFunctions (is ++ js) (fs ++ gs) := by
  intro rest
  rw [List.append_assoc, h, h', Option.map_map]
  congr 1
  funext hs
  simp

theorem singleton (h : Function.ofItems? is = some f) : SpellsFunctions is [f] := by
  intro rest
  have hsix := h
  unfold Function.ofItems? at h
  split at h
  · simp only [List.cons_append, List.nil_append, functions?, hsix]
    cases functions? rest <;> rfl
  · exact nomatch h

theorem functions?_eq (h : SpellsFunctions is fs) : functions? is = some fs := by
  have hnil := h []
  simpa [functions?] using hnil

end SpellsFunctions

/-! ## Lines -/

/-- A writer goes on by lines that are read as some functions. -/
def WroteFunctions (w w' : Func.Writer) (fs : List Function) : Prop :=
  ∃ is, Wrote w w' is ∧ SpellsFunctions is fs

namespace WroteFunctions

variable {w w' w'' : Func.Writer}

theorem refl (w : Func.Writer) : WroteFunctions w w [] := ⟨[], .refl w, .nil⟩

theorem blank (w : Func.Writer) : WroteFunctions w w.blank [] := ⟨[], .blank w, .nil⟩

theorem trans (h : WroteFunctions w w' fs) (h' : WroteFunctions w' w'' gs) :
    WroteFunctions w w'' (fs ++ gs) := by
  obtain ⟨is, hwrote, hspells⟩ := h
  obtain ⟨js, hwrote', hspells'⟩ := h'
  exact ⟨is ++ js, hwrote.trans hwrote', hspells.append hspells'⟩

theorem singleton (h : WroteFunction w w' f) : WroteFunctions w w' [f] := by
  obtain ⟨is, hwrote, hf⟩ := h
  exact ⟨is, hwrote, .singleton hf⟩

end WroteFunctions

/-! ## Texts -/

/-- A text that is read as some functions, whatever comes after it. -/
def SpellsText (text : String) (fs : List Function) : Prop :=
  ∃ ts is, (∀ rest, tokens (text.toList ++ rest) = ts ++ tokens rest) ∧ Reads ts is ∧
    SpellsFunctions is fs

namespace SpellsText

variable {x y : String}

theorem nil : SpellsText "" [] := ⟨[], [], fun _ => rfl, .nil, .nil⟩

theorem newline : SpellsText "\n" [] := ⟨[], [], tokens_newline [], .nil, .nil⟩

theorem append (h : SpellsText x fs) (h' : SpellsText y gs) : SpellsText (x ++ y) (fs ++ gs) := by
  obtain ⟨ts, is, htokens, hreads, hspells⟩ := h
  obtain ⟨us, js, htokens', hreads', hspells'⟩ := h'
  refine ⟨ts ++ us, is ++ js, fun rest => ?_, hreads.append hreads', hspells.append hspells'⟩
  rw [String.toList_append, List.append_assoc, htokens, htokens', List.append_assoc]

/-- What a writer has written from the start. -/
theorem of_wrote {w : Func.Writer} (h : WroteFunctions .empty w fs) : SpellsText w.text fs := by
  obtain ⟨is, ⟨ts, ⟨added, htext, htokens⟩, hreads⟩, hspells⟩ := h
  refine ⟨ts, is, fun rest => ?_, hreads, hspells⟩
  rw [htext, String.toList_append, String.toList_ofList]
  exact htokens rest

theorem functionsOfText?_eq (h : SpellsText x fs) : functionsOfText? x = some fs := by
  obtain ⟨ts, is, htokens, hreads, hspells⟩ := h
  have htokens' : tokens x.toList = ts := by simpa using htokens []
  rw [functionsOfText?, htokens', Reads.read_eq hreads, Option.bind_some, hspells.functions?_eq]

/-- An empty text has no function. -/
theorem eq_nil (h : SpellsText "" fs) : fs = [] :=
  Option.some.inj (h.functionsOfText?_eq.symm.trans nil.functionsOfText?_eq)

end SpellsText

end Code
end MessageRouter
