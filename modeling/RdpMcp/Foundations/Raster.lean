import Mathlib.Data.List.Basic
import Mathlib.Algebra.Order.Ring.Nat

/-!
# Checked slices and strided row copies

Sequences with **checked** ranges: `slice` and `copyFromSlice` are defined exactly when the range is
in bounds (and, for the copy, when the lengths agree), so "no access is out of range" is the
statement that a computation built from them is defined.

A raster is a sequence read in rows of a fixed stride. `copyRows` copies one range per row from one
sequence to another, one row after the other, each side at its own addresses; it is the loop every
dirty-rectangle update, crop or blit is made of. `copyRows_raster` says what it does to
the target when both sides are rasters, in the coordinates (row, column) of the target: inside the
rectangle the source's element, everywhere else the old one. `copyRows_gather` is the case where the
target is filled row by row and the source's rows lie anywhere. A raster built row by row from
nothing is the other half: `getElem?_flatten_map_range` finds each row again.

Nothing here knows what the elements are.
-/

namespace Raster

variable {α : Type*}

/-! ### Checked ranges -/

/-- The elements of `xs` from `lo` up to `hi`, when that is a range of `xs`. -/
def slice (xs : List α) (lo hi : ℕ) : Option (List α) :=
  if lo ≤ hi ∧ hi ≤ xs.length then some ((xs.drop lo).take (hi - lo)) else none

/-- `xs` with the elements from `lo` up to `hi` replaced by `src`, when that is a range of `xs` and
`src` has its length. -/
def copyFromSlice (xs : List α) (lo hi : ℕ) (src : List α) : Option (List α) :=
  if lo ≤ hi ∧ hi ≤ xs.length ∧ src.length = hi - lo then
    some (xs.take lo ++ src ++ xs.drop hi)
  else none

theorem slice_of_le {xs : List α} {lo hi : ℕ} (hlo : lo ≤ hi) (hhi : hi ≤ xs.length) :
    slice xs lo hi = some ((xs.drop lo).take (hi - lo)) :=
  if_pos ⟨hlo, hhi⟩

/-- A slice is known by its elements. -/
theorem slice_eq_some {xs zs : List α} {lo : ℕ} (hlen : lo + zs.length ≤ xs.length)
    (h : ∀ k < zs.length, xs[lo + k]? = zs[k]?) : slice xs lo (lo + zs.length) = some zs := by
  rw [slice_of_le (Nat.le_add_right _ _) hlen, Nat.add_sub_cancel_left, Option.some.injEq]
  refine List.ext_getElem? fun k ↦ ?_
  by_cases hk : k < zs.length
  · rw [List.getElem?_take_of_lt hk, List.getElem?_drop, h k hk]
  · rw [List.getElem?_eq_none (by simp; omega), List.getElem?_eq_none (by omega)]

/-- Ranges that agree element by element have the same slice. -/
theorem slice_congr {xs ys : List α} {lo lo' n : ℕ} (hx : lo + n ≤ xs.length)
    (hy : lo' + n ≤ ys.length) (h : ∀ k < n, xs[lo + k]? = ys[lo' + k]?) :
    slice xs lo (lo + n) = slice ys lo' (lo' + n) := by
  have hlen : ((ys.drop lo').take n).length = n := by
    rw [List.length_take, List.length_drop]
    omega
  rw [slice_of_le (Nat.le_add_right _ _) hy, Nat.add_sub_cancel_left]
  have hzs := slice_eq_some (show lo + ((ys.drop lo').take n).length ≤ xs.length by omega)
    fun k hk ↦ by rw [h k (by omega), List.getElem?_take_of_lt (by omega), List.getElem?_drop]
  rwa [hlen] at hzs

theorem copyFromSlice_of_le {xs src : List α} {lo hi : ℕ} (hlo : lo ≤ hi)
    (hhi : hi ≤ xs.length) (hlen : src.length = hi - lo) :
    copyFromSlice xs lo hi src = some (xs.take lo ++ src ++ xs.drop hi) :=
  if_pos ⟨hlo, hhi, hlen⟩

/-- Replacing a range by as many elements moves nothing after it. -/
theorem length_replaced {xs src : List α} {lo hi : ℕ} (hlo : lo ≤ hi) (hhi : hi ≤ xs.length)
    (hlen : src.length = hi - lo) : (xs.take lo ++ src ++ xs.drop hi).length = xs.length := by
  simp only [List.length_append, List.length_take, List.length_drop, hlen]
  omega

/-- Inside the range the new elements, outside it the old ones. -/
theorem getElem?_replaced {xs src : List α} {lo hi : ℕ} (hlo : lo ≤ hi) (hhi : hi ≤ xs.length)
    (hlen : src.length = hi - lo) (i : ℕ) :
    (xs.take lo ++ src ++ xs.drop hi)[i]? =
      if lo ≤ i ∧ i < hi then src[i - lo]? else xs[i]? := by
  have htake : (xs.take lo).length = lo := by
    rw [List.length_take]
    omega
  rcases Nat.lt_or_ge i lo with hi_lt | hi_ge
  · rw [if_neg (by omega), List.append_assoc, List.getElem?_append_left (by omega),
      List.getElem?_take_of_lt hi_lt]
  · rcases Nat.lt_or_ge i hi with hi_in | hi_out
    · rw [if_pos ⟨hi_ge, hi_in⟩, List.getElem?_append_left (by simp; omega),
        List.getElem?_append_right (by omega), htake]
    · rw [if_neg (by omega), List.getElem?_append_right (by simp; omega), List.getElem?_drop]
      congr 1
      simp only [List.length_append, htake, hlen]
      omega

/-! ### Copying rows -/

/-- Copy one range of `src` over one range of `dst` per row, for the first `rows` rows. -/
def copyRows (src : List α) (srcRange dstRange : ℕ → ℕ × ℕ) (rows : ℕ) (dst : List α) :
    Option (List α) :=
  (List.range rows).foldlM
    (fun d r ↦ (slice src (srcRange r).1 (srcRange r).2).bind
      (copyFromSlice d (dstRange r).1 (dstRange r).2)) dst

theorem copyRows_succ (src dst : List α) (srcRange dstRange : ℕ → ℕ × ℕ) (rows : ℕ) :
    copyRows src srcRange dstRange (rows + 1) dst =
      (copyRows src srcRange dstRange rows dst).bind fun d ↦
        (slice src (srcRange rows).1 (srcRange rows).2).bind
          (copyFromSlice d (dstRange rows).1 (dstRange rows).2) := by
  rw [copyRows, List.range_succ, List.foldlM_append]
  simp only [List.foldlM_cons, List.foldlM_nil]
  congr 1
  funext d
  exact bind_pure _

/-- Only the ranges of the rows copied matter. -/
theorem copyRows_congr {src dst : List α} {srcRange srcRange' dstRange dstRange' : ℕ → ℕ × ℕ}
    {rows : ℕ} (hsrc : ∀ r < rows, srcRange r = srcRange' r)
    (hdst : ∀ r < rows, dstRange r = dstRange' r) :
    copyRows src srcRange dstRange rows dst = copyRows src srcRange' dstRange' rows dst := by
  induction rows with
  | zero => rfl
  | succ rows ih =>
    rw [copyRows_succ, copyRows_succ, ih (fun r hr ↦ hsrc r (by omega)) fun r hr ↦
      hdst r (by omega), hsrc rows (by omega), hdst rows (by omega)]

/-- In a raster of stride `t`, an address names its row and column. -/
theorem address_mem_row_iff {t r r' j x n : ℕ} (hj : j < t) (hx : x + n ≤ t) :
    (r' * t + x ≤ r * t + j ∧ r * t + j < r' * t + x + n) ↔ r = r' ∧ x ≤ j ∧ j < x + n := by
  constructor
  · rintro ⟨hlo, hhi⟩
    have hrow : r = r' := by
      rcases Nat.lt_trichotomy r r' with h | h | h
      · have hmul : (r + 1) * t ≤ r' * t := Nat.mul_le_mul_right t h
        rw [Nat.add_mul] at hmul
        omega
      · exact h
      · have hmul : (r' + 1) * t ≤ r * t := Nat.mul_le_mul_right t h
        rw [Nat.add_mul] at hmul
        omega
    subst hrow
    exact ⟨rfl, by omega, by omega⟩
  · rintro ⟨rfl, hlo, hhi⟩
    omega

/-- **Copying a rectangle between rasters.** When every row's range lies in both sequences the copy
is defined, keeps the target's length, and in target coordinates (row `r`, column `j`) reads the
source inside the rectangle and the old target outside it. The induction is on the rows copied so
far. -/
theorem copyRows_raster {src dst : List α} {s t x y n rows : ℕ} (hx : x + n ≤ t)
    (hsrc : ∀ r < rows, r * s + n ≤ src.length)
    (hdst : ∀ r < rows, (y + r) * t + x + n ≤ dst.length) :
    ∃ out, copyRows src (fun r ↦ (r * s, r * s + n))
        (fun r ↦ ((y + r) * t + x, (y + r) * t + x + n)) rows dst = some out ∧
      out.length = dst.length ∧
      ∀ r j, j < t → out[r * t + j]? =
        if (y ≤ r ∧ r < y + rows) ∧ (x ≤ j ∧ j < x + n) then src[(r - y) * s + (j - x)]?
        else dst[r * t + j]? := by
  induction rows with
  | zero => exact ⟨dst, rfl, rfl, fun r j _ ↦ (if_neg (by omega)).symm⟩
  | succ rows ih =>
    obtain ⟨mid, hmid, hlen, hread⟩ :=
      ih (fun r hr ↦ hsrc r (by omega)) (fun r hr ↦ hdst r (by omega))
    have hs := hsrc rows (by omega)
    have hd := hdst rows (by omega)
    have hslice : ((src.drop (rows * s)).take (rows * s + n - rows * s)).length =
        (y + rows) * t + x + n - ((y + rows) * t + x) := by
      rw [List.length_take, List.length_drop]
      omega
    refine ⟨_, ?_, (length_replaced (by omega) (by omega) hslice).trans hlen, ?_⟩
    · rw [copyRows_succ, hmid, Option.bind_some, slice_of_le (by omega) hs, Option.bind_some]
      exact copyFromSlice_of_le (by omega) (by omega) hslice
    · intro r j hj
      rw [getElem?_replaced (by omega) (by omega) hslice, hread r j hj]
      simp only [address_mem_row_iff hj hx]
      by_cases hrow : r = y + rows ∧ x ≤ j ∧ j < x + n
      · obtain ⟨rfl, hj₁, hj₂⟩ := hrow
        rw [if_pos ⟨rfl, hj₁, hj₂⟩, if_pos ⟨by omega, hj₁, hj₂⟩,
          List.getElem?_take_of_lt (by omega), List.getElem?_drop]
        congr 1
        rw [Nat.add_sub_cancel_left]
        omega
      · rw [if_neg hrow]
        congr 1
        simp only [eq_iff_iff]
        omega

/-! ### Filling a raster -/

/-- **A loop that fills one block per round.** If every round fills its own block, from `base` on,
and leaves the rest alone, then the loop fills them all. The induction is on the rounds done. -/
theorem foldlM_fill {body : List α → ℕ → Option (List α)} {base n rounds len : ℕ}
    {f : ℕ → ℕ → Option α}
    (hbody : ∀ d r, r < rounds → d.length = len → ∃ d', body d r = some d' ∧ d'.length = len ∧
      (∀ k < n, d'[base + r * n + k]? = f r k) ∧
      ∀ i, i < base + r * n ∨ base + r * n + n ≤ i → d'[i]? = d[i]?)
    {d : List α} (hd : d.length = len) :
    ∃ out, (List.range rounds).foldlM body d = some out ∧ out.length = len ∧
      (∀ r < rounds, ∀ k < n, out[base + r * n + k]? = f r k) ∧
      ∀ i, i < base ∨ base + rounds * n ≤ i → out[i]? = d[i]? := by
  induction rounds with
  | zero => exact ⟨d, rfl, hd, nofun, fun i _ ↦ rfl⟩
  | succ rounds ih =>
    obtain ⟨mid, hmid, hlen, hfilled, hrest⟩ := ih fun d r hr ↦ hbody d r (by omega)
    obtain ⟨out, hout, hlen', hblock, hother⟩ := hbody mid rounds (by omega) hlen
    have hsucc : (rounds + 1) * n = rounds * n + n := by rw [Nat.add_mul, Nat.one_mul]
    refine ⟨out, ?_, hlen', fun r hr k hk ↦ ?_, fun i hi ↦ ?_⟩
    · rw [List.range_succ, List.foldlM_append, hmid]
      show (body mid rounds >>= fun out ↦ pure out) = some out
      rw [hout]
      rfl
    · rcases Nat.lt_succ_iff_lt_or_eq.1 hr with hr | rfl
      · have hmul : (r + 1) * n ≤ rounds * n := Nat.mul_le_mul_right n hr
        rw [Nat.add_mul, Nat.one_mul] at hmul
        rw [hother _ (.inl (by omega)), hfilled r hr k hk]
      · exact hblock k hk
    · rw [hother i (by omega), hrest i (by omega)]

/-- **Rows gathered from anywhere**, one behind the other from `base` on. -/
theorem copyRows_gather {src dst : List α} {s : ℕ → ℕ} {base n rows : ℕ}
    (hsrc : ∀ r < rows, s r + n ≤ src.length) (hdst : base + rows * n ≤ dst.length) :
    ∃ out, copyRows src (fun r ↦ (s r, s r + n)) (fun r ↦ (base + r * n, base + r * n + n)) rows
        dst = some out ∧ out.length = dst.length ∧
      (∀ r < rows, ∀ k < n, out[base + r * n + k]? = src[s r + k]?) ∧
      ∀ i, i < base ∨ base + rows * n ≤ i → out[i]? = dst[i]? := by
  refine foldlM_fill (fun d r hr hd ↦ ?_) rfl
  have hrow : (r + 1) * n ≤ rows * n := Nat.mul_le_mul_right n hr
  rw [Nat.add_mul, Nat.one_mul] at hrow
  have hs := hsrc r hr
  have hslice : ((src.drop (s r)).take (s r + n - s r)).length =
      base + r * n + n - (base + r * n) := by
    rw [List.length_take, List.length_drop]
    omega
  refine ⟨_, ?_, (length_replaced (by omega) (by omega) hslice).trans hd, fun k hk ↦ ?_,
    fun i hi ↦ ?_⟩
  · show (slice src (s r) (s r + n)).bind
      (copyFromSlice d (base + r * n) (base + r * n + n)) = some _
    rw [slice_of_le (by omega) hs, Option.bind_some]
    exact copyFromSlice_of_le (by omega) (by omega) hslice
  · rw [getElem?_replaced (by omega) (by omega) hslice, if_pos (by omega),
      List.getElem?_take_of_lt (by omega), List.getElem?_drop, Nat.add_sub_cancel_left]
  · rw [getElem?_replaced (by omega) (by omega) hslice, if_neg (by omega)]

/-! ### Building a raster -/

/-- Rows that can all be built are built one after the other. -/
theorem mapM_range_eq_some {g : ℕ → Option α} {f : ℕ → α} {rows : ℕ}
    (h : ∀ r < rows, g r = some (f r)) :
    (List.range rows).mapM g = some ((List.range rows).map f) := by
  induction rows with
  | zero => rfl
  | succ rows ih =>
    simp [List.range_succ, ih fun r hr ↦ h r (by omega), h rows (by omega)]

/-- Rows of one length make a raster of that stride. -/
theorem length_flatten_map_range {f : ℕ → List α} {rows n : ℕ}
    (hf : ∀ r < rows, (f r).length = n) : ((List.range rows).map f).flatten.length = rows * n := by
  induction rows with
  | zero => simp
  | succ rows ih =>
    rw [List.range_succ, List.map_append, List.flatten_append, List.length_append,
      ih fun r hr ↦ hf r (by omega), Nat.add_mul, Nat.one_mul]
    simp [hf rows (by omega)]

/-- Row `r` of the raster is the row it was built from. -/
theorem getElem?_flatten_map_range {f : ℕ → List α} {rows n r j : ℕ}
    (hf : ∀ r < rows, (f r).length = n) (hr : r < rows) (hj : j < n) :
    ((List.range rows).map f).flatten[r * n + j]? = (f r)[j]? := by
  induction rows with
  | zero => exact absurd hr (Nat.not_lt_zero r)
  | succ rows ih =>
    have hlen' : ((List.range rows).map f).flatten.length = rows * n :=
      length_flatten_map_range fun r hr ↦ hf r (by omega)
    rw [List.range_succ, List.map_append, List.flatten_append]
    by_cases hlast : r = rows
    · subst hlast
      rw [List.getElem?_append_right (by omega), hlen', Nat.add_sub_cancel_left]
      simp
    · have hmul : (r + 1) * n ≤ rows * n := Nat.mul_le_mul_right n (by omega)
      rw [Nat.add_mul, Nat.one_mul] at hmul
      rw [List.getElem?_append_left (by omega)]
      exact ih (fun r hr ↦ hf r (by omega)) (by omega)

end Raster
