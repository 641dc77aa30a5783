import Mathlib.Data.List.Basic

/-!
# Fallible sequences

Steps that return a value or an error, one after the other: what a sequence that succeeded says
about its steps, and that a first step that fails is the end of it. `exists_of_bind_eq_ok` and
`forall_mem_of_mapM_eq_ok` take a successful run apart without unfolding the monad.
-/

namespace Fallible

variable {ε α β : Type}

/-- A sequence that succeeds does so through its first step. -/
theorem exists_of_bind_eq_ok {x : Except ε α} {f : α → Except ε β} {b : β}
    (h : (x >>= f) = .ok b) : ∃ a, x = .ok a ∧ f a = .ok b := by
  cases x with
  | error e => cases h
  | ok a => exact ⟨a, rfl, h⟩

/-- A sequence whose first step fails is a failure. -/
theorem exists_bind_eq_error {x : Except ε α} (hx : ∃ e, x = .error e) (f : α → Except ε β) :
    ∃ e, (x >>= f) = .error e := by
  obtain ⟨e, rfl⟩ := hx
  exact ⟨e, rfl⟩

/-- What every successful step guarantees holds of all results. -/
theorem forall_mem_of_mapM_eq_ok {f : α → Except ε β} {P : β → Prop}
    (hf : ∀ a b, f a = .ok b → P b) {as : List α} {bs : List β} (h : as.mapM f = .ok bs) :
    ∀ b ∈ bs, P b := by
  induction as generalizing bs with
  | nil =>
    cases h
    exact nofun
  | cons a as ih =>
    rw [List.mapM_cons] at h
    obtain ⟨b, hb, h⟩ := exists_of_bind_eq_ok h
    obtain ⟨others, hothers, h⟩ := exists_of_bind_eq_ok h
    cases h
    exact List.forall_mem_cons.2 ⟨hf a b hb, ih hothers⟩

/-- A map succeeds with the results of its steps, in their order. -/
theorem mapM_eq_ok_iff {f : α → Except ε β} {as : List α} {bs : List β} :
    as.mapM f = .ok bs ↔ as.map f = bs.map .ok := by
  induction as generalizing bs with
  | nil =>
    rw [List.mapM_nil, List.map_nil, eq_comm (a := []), List.map_eq_nil_iff]
    exact ⟨fun h ↦ (Except.ok.inj h).symm, fun h ↦ congrArg Except.ok h.symm⟩
  | cons a as ih =>
    rw [List.mapM_cons, List.map_cons]
    constructor
    · intro h
      obtain ⟨b, hb, h⟩ := exists_of_bind_eq_ok h
      obtain ⟨others, hothers, h⟩ := exists_of_bind_eq_ok h
      obtain rfl := Except.ok.inj h
      rw [hb, ih.1 hothers, List.map_cons]
    · intro h
      cases bs with
      | nil => cases h
      | cons b others =>
        obtain ⟨hb, hothers⟩ := List.cons_eq_cons.1 h
        rw [hb, ih.2 hothers]
        rfl

end Fallible
