import MessageRouter.Contract.Plan
import Mathlib.Data.List.Forall2
/-!
# `Proofs.Plan.FirstMatch` — searches in receivers against searches in the stages of a plan

* `findSome?_eq_of_forall₂`, `any_eq_of_forall₂`: lists that go together in pairs are searched alike.
* `pairwise_of_forall₂`: and what holds of any two in their order holds of those that go with them.
* `map_find?_filterMap`: a search among selected elements is one search.
* `findSome?_ite`: a search by a test.
* `findSome?_eq_some_of_unique`: where all that is selected is the same, it is found.
* `Plan.find?_firstOfTag`: leaving out comments with the tag of an earlier one changes no search for a tag.
* `Plan.skipsMarker_eq_any`: when a stage of bounced messages skips the marker.
-/
namespace MessageRouter

/-! ## Lists that go together -/

variable {α β γ : Type}

/-- Two searches agree on lists whose elements match in pairs that both search alike. -/
theorem findSome?_eq_of_forall₂ {R : α → β → Prop} {xs : List α} {ys : List β}
    (h : List.Forall₂ R xs ys) {f : α → Option γ} {g : β → Option γ}
    (hfg : ∀ x y, R x y → f x = g y) : xs.findSome? f = ys.findSome? g := by
  induction h with
  | nil => rfl
  | cons hxy _ ih => rw [List.findSome?_cons, List.findSome?_cons, hfg _ _ hxy, ih]

/-- Two tests agree on lists whose elements match in pairs that both pass alike. -/
theorem any_eq_of_forall₂ {R : α → β → Prop} {xs : List α} {ys : List β}
    (h : List.Forall₂ R xs ys) {p : α → Bool} {q : β → Bool}
    (hpq : ∀ x y, R x y → p x = q y) : xs.any p = ys.any q := by
  induction h with
  | nil => rfl
  | cons hxy _ ih => rw [List.any_cons, List.any_cons, hpq _ _ hxy, ih]

/-- What holds of any two elements in their order holds of the two that they go with. -/
theorem pairwise_of_forall₂ {R : α → β → Prop} {S : α → α → Prop} {T : β → β → Prop} {xs : List α}
    {ys : List β} (h : List.Forall₂ R xs ys) (hxs : xs.Pairwise S)
    (hST : ∀ x x' y y', R x y → R x' y' → S x x' → T y y') : ys.Pairwise T := by
  induction h with
  | nil => exact .nil
  | @cons x y xs ys hxy hrest ih =>
    obtain ⟨hx, hxs⟩ := List.pairwise_cons.mp hxs
    refine .cons ?_ (ih hxs)
    intro y' hy'
    obtain ⟨n, hn, rfl⟩ := List.getElem_of_mem hy'
    have hn' : n < xs.length := hrest.length_eq ▸ hn
    exact hST _ _ _ _ hxy (hrest.get hn' hn) (hx _ (List.getElem_mem hn'))

/-! ## Selected elements -/

/-- The first of the selected elements that fits is the first element selected by what fits. -/
theorem map_find?_filterMap {f : α → Option β} {p : β → Bool} {g : β → γ} (xs : List α) :
    ((xs.filterMap f).find? p).map g = xs.findSome? fun x => ((f x).filter p).map g := by
  induction xs with
  | nil => rfl
  | cons x xs ih =>
    rw [List.findSome?_cons, List.filterMap_cons, ← ih]
    cases hx : f x with
    | none => rfl
    | some b =>
      cases hp : p b with
      | true => rw [Option.filter_some_pos hp, List.find?_cons_of_pos hp]; rfl
      | false => simp only [Option.filter_some, hp, List.find?_cons]; rfl

/-- What is selected by a test is the first element that passes it. -/
theorem findSome?_ite {p : α → Bool} {f : α → β} (xs : List α) :
    (xs.findSome? fun x => if p x then some (f x) else none) = (xs.find? p).map f := by
  induction xs with
  | nil => rfl
  | cons x xs ih =>
    rw [List.findSome?_cons, List.find?_cons, ih]
    cases p x <;> rfl

/-- Where all that is selected is the same, it is found. -/
theorem findSome?_eq_some_of_unique {f : α → Option β} {xs : List α} {x : α} {y : β} (hx : x ∈ xs)
    (hfx : f x = some y) (h : ∀ z ∈ xs, ∀ w, f z = some w → w = y) : xs.findSome? f = some y := by
  cases hfind : xs.findSome? f with
  | none => exact nomatch hfx.symm.trans (List.findSome?_eq_none_iff.mp hfind x hx)
  | some w =>
    obtain ⟨z, hz, hfz⟩ := List.exists_of_findSome?_eq_some hfind
    rw [h z hz w hfz]

/-! ## Stages -/

namespace Plan

/-- Arms of a tag that came before do not change which arm of a tag is the first. -/
theorem find?_firstOfTag (arms : List CommentArm) (tag : String) :
    (firstOfTag arms).find? (fun arm => arm.hash = tag) = arms.find? fun arm => arm.hash = tag := by
  induction arms with
  | nil => rfl
  | cons arm rest ih =>
    rw [firstOfTag, List.find?_cons, List.find?_cons]
    by_cases h : arm.hash = tag
    · simp [h]
    · simp only [h, decide_false]
      rw [← ih, List.find?_filter]
      congr 1
      funext other
      by_cases ho : other.hash = tag
      · have hne : tag ≠ arm.hash := fun he => h he.symm
        simp [ho, hne]
      · simp [ho]

/-- Some receiver looks behind the marker exactly if some route is that of a bounce. -/
theorem skipsMarker_eq_any (routes : List Route) :
    (BounceStage.mk (routes.filterMap Route.bounced?)
        (routes.findSome? Route.anyBounced?)).skipsMarker =
      routes.any fun route => route.bounced?.isSome || route.anyBounced?.isSome := by
  unfold BounceStage.skipsMarker
  induction routes with
  | nil => rfl
  | cons route rest ih =>
    rw [List.any_cons, ← ih, List.filterMap_cons, List.findSome?_cons]
    cases route.bounced? with
    | some arm => rfl
    | none =>
      cases route.anyBounced? with
      | some h => simp
      | none => rfl

end Plan
end MessageRouter
