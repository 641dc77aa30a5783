import Mathlib.Data.List.Basic

/-!
# Histories

A history is a list that grows at its end. What is said of every entry may refer to the entries
before it (`Each`): a reply has a request before it, a release has an acquisition. When a history
grows, only the new entries are left to look at.
-/

namespace History

variable {α : Type*} {Q : List α → α → Prop} {history entries : List α} {a : α}

variable (Q) in
/-- Every entry is as `Q` says, given the entries before it. -/
def Each (history : List α) : Prop :=
  ∀ pre a post, history = pre ++ a :: post → Q pre a

theorem each_nil : Each Q [] :=
  fun _ _ _ h ↦ absurd h.symm (List.append_ne_nil_of_right_ne_nil _ (List.cons_ne_nil _ _))

/-- **Several entries are added.** -/
theorem Each.append (h : Each Q history)
    (hentries : ∀ pre a post, entries = pre ++ a :: post → Q (history ++ pre) a) :
    Each Q (history ++ entries) := by
  intro pre a post heq
  rcases List.append_eq_append_iff.1 heq with ⟨before, rfl, hentry⟩ | ⟨behind, hhistory, hentry⟩
  · exact hentries before a post hentry
  · cases behind with
    | nil =>
      rw [List.append_nil] at hhistory
      rw [← hhistory, ← List.append_nil history]
      exact hentries [] a post hentry.symm
    | cons b behind =>
      obtain ⟨rfl, -⟩ := List.cons.inj hentry
      exact h pre a behind hhistory

/-- **One entry is added.** -/
theorem Each.concat (h : Each Q history) (ha : Q history a) : Each Q (history ++ [a]) := by
  refine h.append fun pre b post heq ↦ ?_
  obtain ⟨rfl, rfl⟩ : pre = [] ∧ a = b := by
    cases pre with
    | nil => exact ⟨rfl, (List.cons.inj heq).1⟩
    | cons c pre =>
      obtain ⟨-, hnil⟩ := List.cons.inj heq
      exact absurd hnil.symm (List.append_ne_nil_of_right_ne_nil _ (List.cons_ne_nil _ _))
  rw [List.append_nil]
  exact ha

end History
