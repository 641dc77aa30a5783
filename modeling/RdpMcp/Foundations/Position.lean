import Mathlib.Data.List.Basic
import Mathlib.Data.List.Induction

/-!
# Every position of a list

Statements of the form *wherever `x` stands in the trace, what comes before and after it is so*.
`AtEach P pre xs` says it by recursion, with what has been passed already in `pre`, so that a trace
built step by step is treated step by step; `atEach_iff` is the statement about positions.

`EachAfter` is the same where only what comes before matters, for traces that grow at their end.

`exists_cut_flatMap` finds the position of a cut through a list that is put together from pieces.
-/

variable {α β : Type*}

/-- `P` of every element of `xs`, with what precedes it, `pre` included, and what follows it. -/
def AtEach (P : List α → α → List α → Prop) : List α → List α → Prop
  | _, [] => True
  | pre, x :: xs => P pre x xs ∧ AtEach P (pre ++ [x]) xs

theorem AtEach.of_append {P : List α → α → List α → Prop} {xs pre : List α} {x : α} {post : List α}
    {before : List α} (h : AtEach P before xs) (hxs : xs = pre ++ x :: post) :
    P (before ++ pre) x post := by
  induction pre generalizing before xs with
  | nil =>
    subst hxs
    rw [List.append_nil]
    exact h.1
  | cons y pre ih =>
    subst hxs
    rw [List.append_cons]
    exact ih h.2 rfl

/-- What holds at each position holds wherever the list is split. -/
theorem atEach_iff {P : List α → α → List α → Prop} {xs : List α} :
    AtEach P [] xs ↔ ∀ pre x post, xs = pre ++ x :: post → P pre x post := by
  refine ⟨fun h pre x post hxs ↦ h.of_append hxs, fun h ↦ ?_⟩
  have hgo : ∀ before ys, xs = before ++ ys → AtEach P before ys := by
    intro before ys
    induction ys generalizing before with
    | nil => exact fun _ ↦ trivial
    | cons y ys ih =>
      intro hxs
      exact ⟨h before y ys hxs, ih (before ++ [y]) (by rw [hxs, List.append_cons])⟩
  exact hgo [] xs rfl

/-- A cut inside a list of pieces is inside one piece, behind some and before others. -/
theorem exists_cut_flatMap {f : α → List β} {xs : List α} {cut : ℕ}
    (h : cut < (xs.flatMap f).length) :
    ∃ before x after c, xs = before ++ x :: after ∧ c < (f x).length ∧
      cut = (before.flatMap f).length + c ∧
      (xs.flatMap f).take cut = before.flatMap f ++ (f x).take c := by
  induction xs generalizing cut with
  | nil => exact absurd h (Nat.not_lt_zero cut)
  | cons y xs ih =>
    by_cases hhere : cut < (f y).length
    · refine ⟨[], y, xs, cut, rfl, hhere, (Nat.zero_add cut).symm, ?_⟩
      rw [List.flatMap_cons, List.take_append_of_le_length (Nat.le_of_lt hhere)]
      rfl
    · rw [List.flatMap_cons, List.length_append] at h
      obtain ⟨before, x, after, c, rfl, hc, hcut, htake⟩ :=
        ih (show cut - (f y).length < (xs.flatMap f).length by omega)
      refine ⟨y :: before, x, after, c, rfl, hc, ?_, ?_⟩
      · rw [List.flatMap_cons, List.length_append]
        omega
      · rw [List.flatMap_cons, List.flatMap_cons, List.take_append,
          List.take_of_length_le (by omega), htake, List.append_assoc]

/-- `P` of every element of `xs`, with what precedes it: wherever `x` stands, what comes before it
is so. -/
def EachAfter (P : List α → α → Prop) (xs : List α) : Prop :=
  ∀ pre x post, xs = pre ++ x :: post → P pre x

theorem eachAfter_nil (P : List α → α → Prop) : EachAfter P [] := by
  intro pre x post h
  cases List.append_ne_nil_of_right_ne_nil pre (List.cons_ne_nil x post) h.symm

/-- A trace that grows at its end is treated one element after the other. -/
theorem eachAfter_concat {P : List α → α → Prop} {xs : List α} {x : α} :
    EachAfter P (xs ++ [x]) ↔ EachAfter P xs ∧ P xs x := by
  constructor
  · intro h
    refine ⟨fun pre y post hxs ↦ h pre y (post ++ [x]) ?_, h xs x [] rfl⟩
    rw [hxs, List.append_assoc, List.cons_append]
  · rintro ⟨h, hx⟩ pre y post hxs
    rcases List.eq_nil_or_concat post with rfl | ⟨post, z, rfl⟩
    · obtain ⟨rfl, hy⟩ := List.append_inj' hxs rfl
      obtain ⟨rfl, -⟩ := List.cons.inj hy
      exact hx
    · rw [List.concat_eq_append, ← List.cons_append, ← List.append_assoc] at hxs
      obtain ⟨rfl, -⟩ := List.append_inj' hxs rfl
      exact h pre y post rfl

/-- What is never behind itself is there once at most. -/
theorem EachAfter.count_le_one [DecidableEq α] {P : List α → α → Prop} {xs : List α} {x : α}
    (h : EachAfter P xs) (hP : ∀ pre, P pre x → x ∉ pre) : xs.count x ≤ 1 := by
  induction xs using List.reverseRecOn with
  | nil => exact Nat.zero_le 1
  | append_singleton xs y ih =>
    obtain ⟨hxs, hy⟩ := eachAfter_concat.1 h
    rw [List.count_append, List.count_singleton]
    split
    · next heq =>
      obtain rfl := beq_iff_eq.1 heq
      have hzero : xs.count y = 0 := List.count_eq_zero.2 (hP xs hy)
      omega
    · exact ih hxs
