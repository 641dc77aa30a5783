import Mathlib.Data.List.Basic
import Mathlib.Data.List.Infix

/-!
# Reading and writing in a buffer

A buffer of a fixed size that is written from the front, and computations that read and write it. An
access beyond the buffer **stops the computation as undefined**; that is told apart from a
computation that fails, which is an answer. `Yields P Q r` says of an outcome `r` that it is never
undefined, that its value satisfies `Q`, and that it fails only where `P` does not hold; it is built
up along a computation by `Yields.bind`.

A reader is compared with a partial function that says what it should find. `Finds P R v x found`
is `Yields` for that: whatever the reader brings satisfies `R`, it shows as what is found (if
anything is), and where something is found the reader fails only without `P`. It follows the partial
function bind by bind (`Finds.bind`).

What a writer relies on is that the buffer starts with what has been written (`front <+: bytes`).
`store_of_prefix` says that a write right behind it makes the front longer, whatever was there.
-/

namespace CheckedBuffer

/-- Why a computation has no value. -/
inductive Stop where
  /-- An access beyond the buffer. -/
  | undefined
  | failed
  deriving DecidableEq, Repr

abbrev Checked (α : Type) := Except Stop α

variable {α β : Type}

/-! ### Reading and writing -/

/-- Read index `i`. -/
def load (bytes : List α) (i : ℕ) : Checked α :=
  match bytes[i]? with
  | some a => .ok a
  | none => .error .undefined

theorem load_eq_ok {bytes : List α} {i : ℕ} (h : i < bytes.length) :
    load bytes i = .ok bytes[i] := by
  rw [load, List.getElem?_eq_getElem h]

/-- Write `new` from index `i` on. -/
def store (bytes : List α) (i : ℕ) (new : List α) : Checked (List α) :=
  if i + new.length ≤ bytes.length then
    .ok (bytes.take i ++ new ++ bytes.drop (i + new.length))
  else .error .undefined

theorem store_of_prefix {bytes front : List α} (new : List α) {i : ℕ} (hfront : front <+: bytes)
    (hi : i = front.length) (hroom : front.length + new.length ≤ bytes.length) :
    ∃ bytes', store bytes i new = .ok bytes' ∧ front ++ new <+: bytes' ∧
      bytes'.length = bytes.length := by
  obtain ⟨rest, rfl⟩ := hfront
  subst hi
  rw [List.length_append] at hroom
  refine ⟨_, if_pos (by rw [List.length_append]; omega), ?_, ?_⟩
  · rw [List.take_left]
    exact List.prefix_append _ _
  · simp only [List.length_append, List.length_take, List.length_drop]
    omega

theorem exists_store {bytes new : List α} {i : ℕ} (hroom : i + new.length ≤ bytes.length) :
    ∃ bytes', store bytes i new = .ok bytes' ∧ bytes'.take i = bytes.take i := by
  refine ⟨_, if_pos hroom, ?_⟩
  rw [List.append_assoc, List.take_append_of_le_length (by rw [List.length_take]; omega),
    List.take_take, Nat.min_self]

/-- What is written over is forgotten, what stands in front is not. -/
theorem prefix_of_append {front old bytes : List α} (h : front ++ old <+: bytes) :
    front <+: bytes :=
  (List.prefix_append _ _).trans h

/-! ### Outcomes -/

/-- An outcome that is not undefined, whose value satisfies `Q`, and which fails only without `P`.
-/
def Yields (P : Prop) (Q : α → Prop) : Checked α → Prop
  | .ok a => Q a
  | .error .undefined => False
  | .error .failed => ¬P

variable {P : Prop} {Q : α → Prop} {R : β → Prop}

theorem Yields.bind {x : Checked α} {f : α → Checked β} (hx : Yields P Q x)
    (hf : ∀ a, Q a → Yields P R (f a)) : Yields P R (x >>= f) := by
  match x, hx with
  | .ok a, hx => exact hf a hx
  | .error .failed, hx => exact hx

theorem Yields.mono {Q' : α → Prop} {x : Checked α} (hx : Yields P Q x) (h : ∀ a, Q a → Q' a) :
    Yields P Q' x := by
  match x, hx with
  | .ok a, hx => exact h a hx
  | .error .failed, hx => exact hx

theorem Yields.ne_undefined {x : Checked α} (hx : Yields P Q x) : x ≠ .error .undefined := by
  rintro rfl
  exact hx

theorem Yields.of_ok {x : Checked α} {a : α} (hx : Yields P Q x) (h : x = .ok a) : Q a := by
  subst h
  exact hx

theorem Yields.exists_ok {x : Checked α} (hx : Yields P Q x) (hP : P) : ∃ a, x = .ok a ∧ Q a := by
  match x, hx with
  | .ok a, hx => exact ⟨a, rfl, hx⟩
  | .error .failed, hx => exact absurd hP hx

/-! ### What a reader finds -/

/-- **The reader finds what it should**: it is never undefined, what it brings satisfies `R`, and
shows as `found`, if anything is to be found; then it fails only without `P`. -/
def Finds {γ : Type} (P : Prop) (R : α → Prop) (v : α → γ) (x : Checked α) (found : Option γ) :
    Prop :=
  Yields (P ∧ found.isSome) (fun a ↦ R a ∧ ∀ c ∈ found, c = v a) x

variable {γ δ : Type} {v : α → γ} {w : β → δ} {found : Option γ}

theorem finds_ok {a : α} (hR : Q a) (hfound : ∀ c ∈ found, c = v a) :
    Finds P Q v (.ok a) found :=
  ⟨hR, hfound⟩

theorem finds_failed : Finds P Q v (.error .failed) (none : Option γ) :=
  fun h ↦ Bool.false_ne_true h.2

/-- Only what is to be found counts. -/
theorem Finds.of_imp {x : Checked α} {found' : Option γ} (hx : Finds P Q v x found')
    (h : ∀ c ∈ found, c ∈ found') : Finds P Q v x found := by
  match x, hx with
  | .ok a, hx => exact ⟨hx.1, fun c hc ↦ hx.2 c (h c hc)⟩
  | .error .failed, hx =>
    refine fun hP ↦ hx ⟨hP.1, ?_⟩
    obtain ⟨c, hc⟩ := Option.isSome_iff_exists.1 hP.2
    rw [h c hc]
    rfl

theorem Finds.bind {x : Checked α} {f : α → Checked β} {g : γ → Option δ}
    (hx : Finds P Q v x found) (hf : ∀ a, Q a → Finds P R w (f a) (g (v a))) :
    Finds P R w (x >>= f) (found.bind g) := by
  match x, hx with
  | .error .failed, hx => exact fun h ↦ hx ⟨h.1, Option.isSome_of_isSome_bind h.2⟩
  | .ok a, hx =>
    cases hc : found with
    | some c =>
      obtain rfl := hx.2 c hc
      exact hf a hx.1
    | none =>
      -- nothing is to be found, but what follows is not undefined
      exact (hf a hx.1).of_imp fun d hd ↦ absurd hd (Option.not_mem_none d)

/-- The same computation, seen as part of another. -/
theorem Finds.mono {x : Checked α} {R : α → Prop} {w : α → δ} {g : γ → δ}
    (hx : Finds P Q v x found) (h : ∀ a, Q a → R a ∧ w a = g (v a)) :
    Finds P R w x (found.map g) := by
  match x, hx with
  | .ok a, hx =>
    refine ⟨(h a hx.1).1, fun d hd ↦ ?_⟩
    obtain ⟨c, hc, rfl⟩ := Option.map_eq_some_iff.1 hd
    rw [hx.2 c hc]
    exact (h a hx.1).2.symm
  | .error .failed, hx => exact fun hP ↦ hx ⟨hP.1, by simpa using hP.2⟩

end CheckedBuffer
