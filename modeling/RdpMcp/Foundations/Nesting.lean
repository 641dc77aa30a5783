import Mathlib.Data.Finset.Basic
import Mathlib.Data.Finset.Lattice.Lemmas

/-!
# Nested presses

Keys that go down one after the other and up again in the reverse order. An event is a key and
whether it goes down. **Positions match, not keys**: the press that is `i`-th from the front is
undone by the release that is `i`-th from the back, also where a key is pressed twice.

What is held is read off the events like a keyboard does, one event at a time, and forgets how often
a key was pressed.
-/

namespace Nesting

variable {κ : Type}

/-- Press the keys in order, and release them in the reverse order. -/
def nest (keys : List κ) : List (κ × Bool) :=
  keys.map (·, true) ++ keys.reverse.map (·, false)

/-- The innermost key goes down and up again at once. -/
theorem nest_concat (keys : List κ) (key : κ) :
    nest (keys ++ [key]) =
      keys.map (·, true) ++ [(key, true), (key, false)] ++ keys.reverse.map (·, false) := by
  simp [nest]

@[simp]
theorem length_nest (keys : List κ) : (nest keys).length = 2 * keys.length := by
  simp [nest]
  omega

/-! ### Matching -/

/-- Every press is undone by the release in the mirrored position, which is later. -/
structure Matched (events : List (κ × Bool)) : Prop where
  released : ∀ i key, events[i]? = some (key, true) →
    i < events.length - 1 - i ∧ events[events.length - 1 - i]? = some (key, false)
  pressed : ∀ i key, events[i]? = some (key, false) →
    events.length - 1 - i < i ∧ events[events.length - 1 - i]? = some (key, true)

/-- An event of a nesting is a press in its first half or a release in its second. -/
theorem getElem?_nest (keys : List κ) (i : ℕ) :
    (nest keys)[i]? =
      if i < keys.length then keys[i]?.map (·, true)
      else keys[2 * keys.length - 1 - i]?.bind fun key ↦
        if i < 2 * keys.length then some (key, false) else none := by
  rw [nest]
  split
  case isTrue h => rw [List.getElem?_append_left (by simpa using h), List.getElem?_map]
  case isFalse h =>
    rw [List.getElem?_append_right (by simpa using h), List.getElem?_map, List.length_map]
    by_cases hi : i < 2 * keys.length
    · rw [List.getElem?_reverse (by omega), Option.map_eq_bind,
        show keys.length - 1 - (i - keys.length) = 2 * keys.length - 1 - i by omega]
      simp only [if_pos hi]
      rfl
    · rw [List.getElem?_eq_none (by simp; omega)]
      simp [hi]

theorem matched_nest (keys : List κ) : Matched (nest keys) := by
  constructor
  · intro i key h
    rw [length_nest, getElem?_nest]
    rw [getElem?_nest] at h
    split at h
    case isTrue hi =>
      obtain ⟨key, hkey, heq⟩ := Option.map_eq_some_iff.1 h
      obtain rfl := (Prod.mk.inj heq).1
      rw [if_neg (by omega),
        show 2 * keys.length - 1 - (2 * keys.length - 1 - i) = i by omega, hkey]
      exact ⟨by omega, if_pos (by omega)⟩
    case isFalse =>
      obtain ⟨key', -, heq⟩ := Option.bind_eq_some_iff.1 h
      split at heq
      · cases heq
      · cases heq
  · intro i key h
    rw [length_nest, getElem?_nest]
    rw [getElem?_nest] at h
    split at h
    case isTrue =>
      obtain ⟨key', -, heq⟩ := Option.map_eq_some_iff.1 h
      cases heq
    case isFalse hi =>
      obtain ⟨key', hkey, heq⟩ := Option.bind_eq_some_iff.1 h
      split at heq
      case isTrue hlt =>
        obtain rfl := (Prod.mk.inj (Option.some.inj heq)).1
        rw [if_pos (by omega), hkey]
        exact ⟨by omega, rfl⟩
      case isFalse => cases heq

/-! ### What is held -/

variable [DecidableEq κ]

/-- What is held after an event. -/
def hold (held : Finset κ) (event : κ × Bool) : Finset κ :=
  if event.2 then insert event.1 held else held.erase event.1

/-- What is held after some events. -/
def held (events : List (κ × Bool)) : Finset κ :=
  events.foldl hold ∅

theorem foldl_hold_press (keys : List κ) (start : Finset κ) :
    (keys.map (·, true)).foldl hold start = start ∪ keys.toFinset := by
  induction keys generalizing start with
  | nil => simp
  | cons key keys ih =>
    rw [List.map_cons, List.foldl_cons, ih, hold, if_pos rfl, List.toFinset_cons,
      Finset.union_insert, Finset.insert_union]

theorem foldl_hold_release (keys : List κ) (start : Finset κ) :
    (keys.map (·, false)).foldl hold start = start \ keys.toFinset := by
  induction keys generalizing start with
  | nil => simp
  | cons key keys ih =>
    rw [List.map_cons, List.foldl_cons, ih, hold, if_neg Bool.false_ne_true, List.toFinset_cons]
    ext other
    simp only [Finset.mem_sdiff, Finset.mem_erase, Finset.mem_insert, not_or]
    tauto

/-- **A nesting leaves nothing held** that it has pressed. -/
theorem held_nest (keys : List κ) : held (nest keys) = ∅ := by
  rw [held, nest, List.foldl_append, foldl_hold_press, foldl_hold_release]
  ext key
  simp

/-- In the first half, what has been pressed is held. -/
theorem held_take_nest {keys : List κ} {i : ℕ} (hi : i ≤ keys.length) :
    held ((nest keys).take i) = (keys.take i).toFinset := by
  rw [held, nest, List.take_append_of_le_length (by simpa using hi), ← List.map_take,
    foldl_hold_press, Finset.empty_union]

/-- In the second half, what has been released is not. -/
theorem notMem_held_take_nest {keys : List κ} {i : ℕ} (hi : keys.length ≤ i) {key : κ}
    (h : key ∈ keys.reverse.take (i - keys.length)) : key ∉ held ((nest keys).take i) := by
  rw [held, nest, List.take_append, List.length_map, List.take_of_length_le (by simpa using hi),
    List.foldl_append, ← List.map_take, foldl_hold_release]
  simpa using fun _ ↦ h

/-- What is held was held before or has been pressed. -/
theorem mem_foldl_hold {events : List (κ × Bool)} {start : Finset κ} {key : κ}
    (h : key ∈ events.foldl hold start) : key ∈ start ∨ (key, true) ∈ events := by
  induction events generalizing start with
  | nil => exact .inl h
  | cons event events ih =>
    rcases ih h with hstep | hpressed
    · obtain ⟨other, down⟩ := event
      cases down with
      | true =>
        rcases Finset.mem_insert.1 hstep with rfl | hstart
        · exact .inr List.mem_cons_self
        · exact .inl hstart
      | false => exact .inl (Finset.mem_of_mem_erase hstep)
    · exact .inr (List.mem_cons_of_mem _ hpressed)

/-- Behind events that leave nothing held, holding starts again. -/
theorem held_append {xs : List (κ × Bool)} (h : held xs = ∅) (ys : List (κ × Bool)) :
    held (xs ++ ys) = held ys := by
  rw [held, List.foldl_append, ← held, h, ← held]

/-- **Pieces that leave nothing held leave nothing held together.** -/
theorem held_flatMap {α : Type} {f : α → List (κ × Bool)} {xs : List α}
    (h : ∀ x ∈ xs, held (f x) = ∅) : held (xs.flatMap f) = ∅ := by
  induction xs with
  | nil => rfl
  | cons x xs ih =>
    obtain ⟨hx, hxs⟩ := List.forall_mem_cons.1 h
    rw [List.flatMap_cons, held_append hx, ih hxs]

end Nesting
