import Mathlib.Data.List.Basic
import Mathlib.Order.Defs.Unbundled

/-!
# Step systems and their runs

A system with a **partial** step: from a state, an input either leads to exactly one next state or
to none at all. All nondeterminism sits in the inputs, so a run is a list of inputs and is itself a
partial function; `run` is the monadic fold of the step.

What `none` stands for is the instance's business. For a sequential component it is a step that
aborts, and the theorem wanted is totality (`exists_run`). For an interleaving of several parties it
is an action that is not enabled, and the theorems wanted are about every run that exists
(`run_invariant`, `run_relates`).

Three shapes of argument, each stated once:

* an **invariant** kept by every step is kept by every run;
* a **preorder** respected by every step from invariant states relates the two ends of a run;
* a condition on the steps **actually taken** (`StepsMeet`), which may look at the state before the
  step, carries a conditional invariant along exactly those runs that meet it.
-/

/-- A system with a partial step function. -/
structure StepSystem (σ α : Type*) where
  /-- One step: the next state, or `none` when the step cannot be taken. -/
  step : σ → α → Option σ

namespace StepSystem

variable {σ α : Type*} (M : StepSystem σ α)

/-! ### Runs -/

/-- The state after a list of inputs, if every step on the way can be taken. -/
def run (s : σ) (as : List α) : Option σ :=
  as.foldlM M.step s

@[simp]
theorem run_nil (s : σ) : M.run s [] = some s :=
  rfl

@[simp]
theorem run_cons (s : σ) (a : α) (as : List α) :
    M.run s (a :: as) = (M.step s a).bind fun t ↦ M.run t as :=
  rfl

theorem run_append (s : σ) (as bs : List α) :
    M.run s (as ++ bs) = (M.run s as).bind fun t ↦ M.run t bs :=
  List.foldlM_append

theorem run_cons_eq_some_iff {s u : σ} {a : α} {as : List α} :
    M.run s (a :: as) = some u ↔ ∃ t, M.step s a = some t ∧ M.run t as = some u := by
  rw [run_cons, Option.bind_eq_some_iff]

theorem run_append_eq_some_iff {s u : σ} {as bs : List α} :
    M.run s (as ++ bs) = some u ↔ ∃ t, M.run s as = some t ∧ M.run t bs = some u := by
  rw [run_append, Option.bind_eq_some_iff]

variable {M}

/-! ### Invariants and preorders along a run -/

/-- **The invariant rule.** What every step keeps, every run keeps. -/
theorem run_invariant {P : σ → Prop} (hstep : ∀ s a t, P s → M.step s a = some t → P t)
    {s t : σ} {as : List α} (hs : P s) (hrun : M.run s as = some t) : P t := by
  induction as generalizing s with
  | nil =>
    rw [run_nil, Option.some.injEq] at hrun
    exact hrun ▸ hs
  | cons a as ih =>
    obtain ⟨u, hu, hrest⟩ := M.run_cons_eq_some_iff.1 hrun
    exact ih (hstep s a u hs hu) hrest

/-- **The preorder rule.** A preorder respected by every step from an invariant state relates the
two ends of every run from one. -/
theorem run_relates {P : σ → Prop} {R : σ → σ → Prop} (hrefl : ∀ s, R s s)
    (htrans : ∀ s t u, R s t → R t u → R s u)
    (hP : ∀ s a t, P s → M.step s a = some t → P t)
    (hR : ∀ s a t, P s → M.step s a = some t → R s t)
    {s t : σ} {as : List α} (hs : P s) (hrun : M.run s as = some t) : R s t := by
  induction as generalizing s with
  | nil =>
    rw [run_nil, Option.some.injEq] at hrun
    exact hrun ▸ hrefl s
  | cons a as ih =>
    obtain ⟨u, hu, hrest⟩ := M.run_cons_eq_some_iff.1 hrun
    exact htrans s u t (hR s a u hs hu) (ih (hP s a u hs hu) hrest)

/-- **The totality rule.** If every input can be taken from an invariant state, and keeps the
invariant, then every list of inputs runs to the end. -/
theorem exists_run {P : σ → Prop} (hstep : ∀ s a, P s → ∃ t, M.step s a = some t ∧ P t)
    {s : σ} (hs : P s) (as : List α) : ∃ t, M.run s as = some t ∧ P t := by
  induction as generalizing s with
  | nil => exact ⟨s, rfl, hs⟩
  | cons a as ih =>
    obtain ⟨t, ht, hPt⟩ := hstep s a hs
    obtain ⟨u, hu, hPu⟩ := ih hPt
    exact ⟨u, M.run_cons_eq_some_iff.2 ⟨t, ht, hu⟩, hPu⟩

/-! ### Runs whose steps meet a condition -/

variable (M) in
/-- Every step the run takes meets `C`, a condition on the state before the step and its input. -/
def StepsMeet (C : σ → α → Prop) : σ → List α → Prop
  | _, [] => True
  | s, a :: as => C s a ∧ ∀ t, M.step s a = some t → StepsMeet C t as

/-- The condition is met exactly when it is met at every point of the run. -/
theorem stepsMeet_iff {C : σ → α → Prop} {s : σ} {as : List α} :
    M.StepsMeet C s as ↔
      ∀ pre a post t, as = pre ++ a :: post → M.run s pre = some t → C t a := by
  induction as generalizing s with
  | nil => exact ⟨fun _ pre a post t h ↦ by simp at h, fun _ ↦ trivial⟩
  | cons b as ih =>
    rw [StepsMeet]
    constructor
    · rintro ⟨hhead, htail⟩ pre a post t has hrun
      cases pre with
      | nil =>
        obtain ⟨rfl, -⟩ := List.cons.inj has
        rw [run_nil, Option.some.injEq] at hrun
        exact hrun ▸ hhead
      | cons c pre =>
        obtain ⟨rfl, hpost⟩ := List.cons.inj has
        obtain ⟨u, hu, hrest⟩ := M.run_cons_eq_some_iff.1 hrun
        exact ih.1 (htail u hu) pre a post t hpost hrest
    · intro h
      refine ⟨h [] b as s rfl rfl, fun u hu ↦ ih.2 fun pre a post t has hrun ↦ ?_⟩
      exact h (b :: pre) a post t (by rw [has, List.cons_append])
        (M.run_cons_eq_some_iff.2 ⟨u, hu, hrun⟩)

/-- **The conditional invariant rule.** -/
theorem run_invariant_of_stepsMeet {C : σ → α → Prop} {P : σ → Prop}
    (hstep : ∀ s a t, P s → C s a → M.step s a = some t → P t) {s t : σ} {as : List α}
    (hs : P s) (hC : M.StepsMeet C s as) (hrun : M.run s as = some t) : P t := by
  induction as generalizing s with
  | nil =>
    rw [run_nil, Option.some.injEq] at hrun
    exact hrun ▸ hs
  | cons a as ih =>
    obtain ⟨u, hu, hrest⟩ := M.run_cons_eq_some_iff.1 hrun
    exact ih (hstep s a u hs hC.1 hu) (hC.2 u hu) hrest

/-- **A condition on the inputs alone.** -/
theorem run_invariant_of_forall_mem {C : α → Prop} {P : σ → Prop}
    (hstep : ∀ s a t, P s → C a → M.step s a = some t → P t) {s t : σ} {as : List α}
    (hs : P s) (hC : ∀ a ∈ as, C a) (hrun : M.run s as = some t) : P t := by
  refine run_invariant_of_stepsMeet (C := fun _ a ↦ C a) hstep hs
    (stepsMeet_iff.2 fun pre a post u has _ ↦ hC a ?_) hrun
  rw [has]
  exact List.mem_append_right _ List.mem_cons_self

/-- A condition that every step meets. -/
theorem stepsMeet_of_forall {C : σ → α → Prop} (h : ∀ s a, C s a) (s : σ) (as : List α) :
    M.StepsMeet C s as :=
  stepsMeet_iff.2 fun _ a _ t _ _ ↦ h t a

theorem stepsMeet_and {C D : σ → α → Prop} {s : σ} {as : List α} :
    M.StepsMeet (fun s a ↦ C s a ∧ D s a) s as ↔ M.StepsMeet C s as ∧ M.StepsMeet D s as := by
  simp only [stepsMeet_iff, forall_and]

/-- Conditions that agree in invariant states are met by the same runs. -/
theorem stepsMeet_congr {C D : σ → α → Prop} {I : σ → Prop}
    (hinv : ∀ s a t, I s → M.step s a = some t → I t) (h : ∀ s a, I s → (C s a ↔ D s a)) {s : σ}
    {as : List α} (hI : I s) : M.StepsMeet C s as ↔ M.StepsMeet D s as := by
  induction as generalizing s with
  | nil => exact Iff.rfl
  | cons a as ih =>
    rw [StepsMeet, StepsMeet, h s a hI]
    exact and_congr_right fun _ ↦ forall₂_congr fun t ht ↦ ih (hinv s a t hI ht)

/-- **The exact condition rule**, among the runs whose steps meet `D`. Where a step from a state
with `P` keeps `P` exactly if it meets `C`, all states of a run have `P` exactly if all its steps
meet `C`. An input that cannot be taken meets `C`. -/
theorem stepsMeet_iff_forall_prefix_of_stepsMeet {C D : σ → α → Prop} {I P : σ → Prop}
    (hinv : ∀ s a t, I s → D s a → M.step s a = some t → I t)
    (hstuck : ∀ s a, I s → D s a → M.step s a = none → C s a)
    (hstep : ∀ s a t, I s → P s → D s a → M.step s a = some t → (P t ↔ C s a)) {s : σ}
    {as : List α} (hI : I s) (hP : P s) (hD : M.StepsMeet D s as) :
    M.StepsMeet C s as ↔ ∀ pre post t, as = pre ++ post → M.run s pre = some t → P t := by
  induction as generalizing s with
  | nil =>
    refine iff_of_true trivial fun pre post t has hrun ↦ ?_
    obtain ⟨rfl, rfl⟩ := List.append_eq_nil_iff.1 has.symm
    rw [run_nil, Option.some.injEq] at hrun
    exact hrun ▸ hP
  | cons a as ih =>
    obtain ⟨hDhead, hDtail⟩ := hD
    rw [StepsMeet]
    constructor
    · rintro ⟨hhead, htail⟩ pre post t has hrun
      cases pre with
      | nil =>
        rw [run_nil, Option.some.injEq] at hrun
        exact hrun ▸ hP
      | cons b pre =>
        obtain ⟨rfl, hpost⟩ := List.cons.inj has
        obtain ⟨u, hu, hrest⟩ := M.run_cons_eq_some_iff.1 hrun
        have hPu := (hstep s a u hI hP hDhead hu).2 hhead
        have hIu := hinv s a u hI hDhead hu
        exact (ih hIu hPu (hDtail u hu)).1 (htail u hu) pre post t hpost hrest
    · intro h
      have hPu {u : σ} (hu : M.step s a = some u) : P u :=
        h [a] as u rfl (M.run_cons_eq_some_iff.2 ⟨u, hu, run_nil M u⟩)
      refine ⟨?_, fun u hu ↦ ?_⟩
      · cases hu : M.step s a with
        | none => exact hstuck s a hI hDhead hu
        | some u => exact (hstep s a u hI hP hDhead hu).1 (hPu hu)
      · refine (ih (hinv s a u hI hDhead hu) (hPu hu) (hDtail u hu)).2 fun pre post v has hrun ↦ ?_
        exact h (a :: pre) post v (by rw [has, List.cons_append])
          (M.run_cons_eq_some_iff.2 ⟨u, hu, hrun⟩)

/-- **The exact condition rule.** Where a step from a state with `P` keeps `P` exactly if it meets
`C`, all states of a run have `P` exactly if all its steps meet `C`. An input that cannot be taken
meets `C`. -/
theorem stepsMeet_iff_forall_prefix {C : σ → α → Prop} {I P : σ → Prop}
    (hinv : ∀ s a t, I s → M.step s a = some t → I t)
    (hstuck : ∀ s a, I s → M.step s a = none → C s a)
    (hstep : ∀ s a t, I s → P s → M.step s a = some t → (P t ↔ C s a)) {s : σ} {as : List α}
    (hI : I s) (hP : P s) :
    M.StepsMeet C s as ↔ ∀ pre post t, as = pre ++ post → M.run s pre = some t → P t :=
  stepsMeet_iff_forall_prefix_of_stepsMeet (D := fun _ _ ↦ True)
    (fun s a t hI _ hu ↦ hinv s a t hI hu) (fun s a hI _ hu ↦ hstuck s a hI hu)
    (fun s a t hI hP _ hu ↦ hstep s a t hI hP hu) hI hP
    (stepsMeet_of_forall (fun _ _ ↦ trivial) s as)

/-- A condition met along a run is met along its second half. -/
theorem StepsMeet.append_right {C : σ → α → Prop} {s t : σ} {as bs : List α}
    (hC : M.StepsMeet C s (as ++ bs)) (hrun : M.run s as = some t) : M.StepsMeet C t bs := by
  induction as generalizing s with
  | nil =>
    rw [run_nil, Option.some.injEq] at hrun
    exact hrun ▸ hC
  | cons a as ih =>
    obtain ⟨u, hu, hrest⟩ := M.run_cons_eq_some_iff.1 hrun
    exact ih (hC.2 u hu) hrest

/-- A condition met along a run is met along its first half. -/
theorem StepsMeet.append_left {C : σ → α → Prop} {s : σ} {as bs : List α}
    (hC : M.StepsMeet C s (as ++ bs)) : M.StepsMeet C s as := by
  induction as generalizing s with
  | nil => trivial
  | cons a as ih => exact ⟨hC.1, fun t ht ↦ ih (hC.2 t ht)⟩

end StepSystem
