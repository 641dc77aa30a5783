import Mathlib.Data.List.Basic

/-!
# Lists with one element changed

What a change of one element does to an image of the list: nothing, if the image of the element
stays the same, and the same change otherwise.
-/

namespace ListUpdate

/-- Changing an element in a respect that does not show. -/
theorem map_modify_of_eq {α β : Type*} {f : α → β} {g : α → α} (h : ∀ a, f (g a) = f a) (i : ℕ)
    (xs : List α) : (xs.modify i g).map f = xs.map f := by
  refine List.ext_getElem? fun j ↦ ?_
  rw [List.getElem?_map, List.getElem?_map, List.getElem?_modify]
  by_cases hij : i = j
  · cases xs[j]? with
    | none => rfl
    | some a => simp [hij, h]
  · simp [hij]

theorem map_set_of_eq {α β : Type*} {f : α → β} {xs : List α} {i : ℕ} {a b : α}
    (h : xs[i]? = some a) (hf : f b = f a) : (xs.set i b).map f = xs.map f := by
  refine List.ext_getElem? fun j ↦ ?_
  rw [List.getElem?_map, List.getElem?_set, List.getElem?_map]
  by_cases hij : i = j
  · subst hij
    obtain ⟨hlt, -⟩ := List.getElem?_eq_some_iff.1 h
    rw [if_pos rfl, if_pos hlt, h, Option.map_some, Option.map_some, hf]
  · rw [if_neg hij]

/-- Changing an element to one that shows as `b`. -/
theorem map_modify_eq_set {α β : Type*} {f : α → β} {g : α → α} {b : β} (h : ∀ a, f (g a) = b)
    (i : ℕ) (xs : List α) : (xs.modify i g).map f = (xs.map f).set i b := by
  refine List.ext_getElem? fun j ↦ ?_
  rw [List.getElem?_map, List.getElem?_modify, List.getElem?_set, List.length_map]
  by_cases hij : i = j
  · subst hij
    by_cases hlt : i < xs.length
    · simp [hlt, h]
    · simp [hlt]
  · simp [hij]

end ListUpdate
