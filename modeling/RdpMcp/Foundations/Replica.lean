import Mathlib.Data.Set.Basic
import RdpMcp.Foundations.StepSystem

/-!
# A replica that is brought up to date in regions

A source changes inside a dirty region, and now and then the region is sent to a replica. The
replica is **current** where it has been sent something and nothing is dirty, and blank where it has
been sent nothing. The source may change as long as the dirty region grows with the change
(`Current.change`); sending the region makes the replica current there (`Current.send`), whatever is
dirty from then on; and a blank replica is current from the start (`current_blank`).

What a replica that has received only some of the messages shows is what the source was at an
earlier point of its run: a run that sends one message at a time stops at each of them
(`exists_run_take`).
-/

namespace Replica

variable {ι α β : Type*}

/-- On `domain`, the copy agrees with the source where it has been sent something and nothing is
dirty, and is blank where it has not. -/
structure Current (Agree : α → β → Prop) (domain : Set ι) (blank : β) (source : ι → α)
    (dirty sent : Set ι) (copy : ι → β) : Prop where
  agree : ∀ i ∈ domain, i ∈ sent → i ∉ dirty → Agree (source i) (copy i)
  blank : ∀ i ∈ domain, i ∉ sent → copy i = blank

variable {Agree : α → β → Prop} {domain : Set ι} {blank : β} {source source' : ι → α}
  {dirty dirty' sent : Set ι} {copy copy' : ι → β}

theorem current_blank (h : ∀ i ∈ domain, copy i = blank) :
    Current Agree domain blank source dirty ∅ copy :=
  ⟨fun _ _ hsent ↦ absurd hsent (Set.notMem_empty _), fun i hi _ ↦ h i hi⟩

/-- **The source changes** inside the dirty region, which may grow. -/
theorem Current.change (h : Current Agree domain blank source dirty sent copy)
    (hdirty : dirty ⊆ dirty') (hsame : ∀ i ∈ sent, i ∉ dirty' → source' i = source i) :
    Current Agree domain blank source' dirty' sent copy where
  agree i hi hsent hclean := by
    rw [hsame i hsent hclean]
    exact h.agree i hi hsent fun hmem ↦ hclean (hdirty hmem)
  blank := h.blank

/-- **The dirty region is sent.** -/
theorem Current.send (h : Current Agree domain blank source dirty sent copy)
    (hin : ∀ i ∈ domain, i ∈ dirty → Agree (source i) (copy' i))
    (hout : ∀ i ∈ domain, i ∉ dirty → copy' i = copy i) :
    Current Agree domain blank source dirty' (dirty ∪ sent) copy' where
  agree i hi hsent _ := by
    by_cases hdirty : i ∈ dirty
    · exact hin i hi hdirty
    · rw [hout i hi hdirty]
      exact h.agree i hi (hsent.resolve_left hdirty) hdirty
  blank i hi hunsent := by
    rw [hout i hi fun hdirty ↦ hunsent (.inl hdirty)]
    exact h.blank i hi fun hsent ↦ hunsent (.inr hsent)

/-! ### A part of the messages -/

variable {σ γ μ : Type*} {M : StepSystem σ γ} {out : σ → List μ}

variable (out) in
/-- **Each part of the messages is all that has been sent** at some point of the run. -/
theorem exists_run_take
    (hout : ∀ s a t, M.step s a = some t → out t = out s ∨ ∃ m, out t = out s ++ [m]) {s t : σ}
    {as : List γ} (hrun : M.run s as = some t) {k : ℕ} (hlow : (out s).length ≤ k)
    (hhigh : k ≤ (out t).length) :
    ∃ pre post u, as = pre ++ post ∧ M.run s pre = some u ∧ out u = (out t).take k := by
  induction as generalizing s with
  | nil =>
    obtain rfl := Option.some.inj hrun
    exact ⟨[], [], s, rfl, rfl, (List.take_of_length_le hlow).symm⟩
  | cons a as ih =>
    obtain ⟨u, hu, hrest⟩ := M.run_cons_eq_some_iff.1 hrun
    by_cases hnext : (out u).length ≤ k
    · obtain ⟨pre, post, v, rfl, hpre, hv⟩ := ih hrest hnext
      exact ⟨a :: pre, post, v, rfl, M.run_cons_eq_some_iff.2 ⟨u, hu, hpre⟩, hv⟩
    · have hstarts : out s <+: out t :=
        M.run_relates (P := fun _ ↦ True) (R := fun s t ↦ out s <+: out t)
          (fun s ↦ List.prefix_refl _) (fun _ _ _ ↦ List.IsPrefix.trans) (fun _ _ _ _ _ ↦ trivial)
          (fun s a t _ hstep ↦ by
            rcases hout s a t hstep with h | ⟨m, h⟩
            · exact h ▸ List.prefix_refl _
            · exact h ▸ List.prefix_append _ _) trivial hrun
      have hk : k = (out s).length := by
        rcases hout s a u hu with h | ⟨m, h⟩ <;> rw [h] at hnext
        · exact absurd hlow hnext
        · rw [List.length_append, List.length_singleton] at hnext
          omega
      exact ⟨[], a :: as, s, rfl, rfl, by rw [hk]; exact List.prefix_iff_eq_take.1 hstarts⟩

end Replica
