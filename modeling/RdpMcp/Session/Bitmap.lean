import RdpMcp.Session.State

/-!
# What a bitmap update does

The row loop of `applyBitmap` is a rectangle copied between two rasters: the payload, of stride `4 *
rect.width`, and the framebuffer, of stride `4 * width`. This module turns the machine's address
arithmetic into that statement.

`OnDesktop` is the shape a framebuffer must have for the copy to be in range, and nothing else about
the session is used. The arithmetic is exact as soon as `usize` has 32 bits **and** the announced
payload size fits in it (`ranges_eq`); on 64 bits the second condition is free
(`payloadSize_eq`), which is the only place where the word size matters.
-/

open Raster LittleEndian

namespace RdpMcp

theorem usize_of_lt {bits n : ℕ} (h : n < 2 ^ bits) : usize bits n = n :=
  Nat.mod_eq_of_lt h

/-- A session whose framebuffer holds a desktop of supported size. -/
structure SessionState.OnDesktop (s : SessionState) : Prop where
  width_pos : 0 < s.width
  width_le : s.width ≤ 8192
  height_pos : 0 < s.height
  height_le : s.height ≤ 8192
  framebuffer_length : s.framebuffer.length = s.width * s.height * 4

/-- The fields of a header are 16-bit numbers. -/
theorem lt_of_readHeader {header : List UInt8} {rect : DirtyRect}
    (h : readHeader header = some rect) :
    rect.x < 65536 ∧ rect.y < 65536 ∧ rect.width < 65536 ∧ rect.height < 65536 := by
  unfold readHeader at h
  split at h
  · cases h
    exact ⟨ofBytes_pair_lt _ _, ofBytes_pair_lt _ _, ofBytes_pair_lt _ _, ofBytes_pair_lt _ _⟩
  · cases h

/-- On 64 bits the size check computes the true size. -/
theorem payloadSize_eq {bits : ℕ} {rect : DirtyRect} (h : rect.width * rect.height * 4 < 2 ^ bits) :
    payloadSize bits rect = rect.width * rect.height * 4 := by
  rw [payloadSize, usize_of_lt (show rect.width * rect.height < 2 ^ bits by omega), usize_of_lt h]

theorem size_lt_of_readHeader {header : List UInt8} {rect : DirtyRect}
    (h : readHeader header = some rect) : rect.width * rect.height * 4 < 2 ^ 64 := by
  obtain ⟨-, -, hw, hh⟩ := lt_of_readHeader h
  have hmul : rect.width * rect.height ≤ 65536 * 65536 := Nat.mul_le_mul hw.le hh.le
  omega

namespace SessionState

variable {bits : ℕ} {s : SessionState} {rect : DirtyRect}

/-! ### Addresses -/

/-- A visible row lies inside the payload. -/
theorem source_in_range {row : ℕ} (hrow : row < s.copyHeight rect) :
    row * (rect.width * 4) + s.copyWidth rect * 4 ≤ rect.width * rect.height * 4 := by
  have hw : s.copyWidth rect ≤ rect.width := Nat.min_le_left _ _
  have hh : row + 1 ≤ rect.height := (Nat.lt_min.1 hrow).1
  have hmul : (row + 1) * (rect.width * 4) ≤ rect.height * (rect.width * 4) :=
    Nat.mul_le_mul_right _ hh
  calc row * (rect.width * 4) + s.copyWidth rect * 4
      ≤ (row + 1) * (rect.width * 4) := by rw [Nat.add_mul, Nat.one_mul]; omega
    _ ≤ rect.height * (rect.width * 4) := hmul
    _ = rect.width * rect.height * 4 := by rw [← Nat.mul_assoc, Nat.mul_comm rect.height]

/-- A visible row's columns lie inside the desktop's stride. -/
theorem columns_in_range (hpos : 0 < s.copyWidth rect) :
    rect.x * 4 + s.copyWidth rect * 4 ≤ s.width * 4 := by
  have h : s.copyWidth rect ≤ s.width - rect.x := Nat.min_le_right _ _
  omega

/-- A visible row lies inside the framebuffer. -/
theorem target_in_range (hpos : 0 < s.copyWidth rect) {row : ℕ} (hrow : row < s.copyHeight rect) :
    (rect.y + row) * (s.width * 4) + rect.x * 4 + s.copyWidth rect * 4 ≤
      s.width * s.height * 4 := by
  have hcols := columns_in_range hpos
  have hh : rect.y + row + 1 ≤ s.height := by
    have := (Nat.lt_min.1 hrow).2
    omega
  calc (rect.y + row) * (s.width * 4) + rect.x * 4 + s.copyWidth rect * 4
      ≤ (rect.y + row + 1) * (s.width * 4) := by rw [Nat.add_mul _ 1, Nat.one_mul]; omega
    _ ≤ s.height * (s.width * 4) := Nat.mul_le_mul_right _ hh
    _ = s.width * s.height * 4 := by rw [← Nat.mul_assoc, Nat.mul_comm s.height]

/-- **The machine computes the true addresses**, given 32 bits and a payload size that fits. -/
theorem ranges_eq (hbits : 32 ≤ bits) (hs : s.OnDesktop)
    (hfit : rect.width * rect.height * 4 < 2 ^ bits) (hpos : 0 < s.copyWidth rect) {row : ℕ}
    (hrow : row < s.copyHeight rect) :
    sourceRange bits s rect row =
        (row * (rect.width * 4), row * (rect.width * 4) + s.copyWidth rect * 4) ∧
      targetRange bits s rect row =
        ((rect.y + row) * (s.width * 4) + rect.x * 4,
          (rect.y + row) * (s.width * 4) + rect.x * 4 + s.copyWidth rect * 4) := by
  have hword : 2 ^ 32 ≤ 2 ^ bits := Nat.pow_le_pow_right (by omega) hbits
  have hsrc := source_in_range hrow
  have hcols := columns_in_range hpos
  have htgt := target_in_range hpos hrow
  have hdesk : s.width * s.height ≤ 8192 * 8192 := Nat.mul_le_mul hs.width_le hs.height_le
  have hwidth : rect.width * 4 ≤ rect.width * rect.height * 4 := by
    have hh : 1 ≤ rect.height := by
      have := (Nat.lt_min.1 hrow).1
      omega
    calc rect.width * 4 = rect.width * 1 * 4 := by rw [Nat.mul_one]
      _ ≤ rect.width * rect.height * 4 := Nat.mul_le_mul_right _ (Nat.mul_le_mul_left _ hh)
  have hy : rect.y + row < 8192 := by
    have := (Nat.lt_min.1 hrow).2
    have := hs.height_le
    omega
  have hw := hs.width_le
  constructor
  · simp only [sourceRange]
    rw [usize_of_lt (show rect.width * 4 < 2 ^ bits by omega),
      usize_of_lt (show s.copyWidth rect * 4 < 2 ^ bits by omega),
      usize_of_lt (show row * (rect.width * 4) < 2 ^ bits by omega), usize_of_lt (by omega)]
  · simp only [targetRange]
    rw [usize_of_lt (show rect.y + row < 2 ^ bits by omega),
      usize_of_lt (show s.width * 4 < 2 ^ bits by omega),
      usize_of_lt (show (rect.y + row) * (s.width * 4) < 2 ^ bits by omega),
      usize_of_lt (show rect.x * 4 < 2 ^ bits by omega),
      usize_of_lt (show (rect.y + row) * (s.width * 4) + rect.x * 4 < 2 ^ bits by omega),
      usize_of_lt (show s.copyWidth rect * 4 < 2 ^ bits by omega), usize_of_lt (by omega)]

/-! ### The copy -/

/-- **A payload of the announced size is painted in range.** Inside the visible part of the
rectangle the framebuffer reads the payload, everywhere else it is as it was. -/
theorem copyRows_onDesktop (hbits : 32 ≤ bits) (hs : s.OnDesktop) {pixels : List UInt8}
    (hfit : rect.width * rect.height * 4 < 2 ^ bits)
    (hlen : pixels.length = rect.width * rect.height * 4) (hpos : 0 < s.copyWidth rect) :
    ∃ fb, copyRows pixels (sourceRange bits s rect) (targetRange bits s rect)
        (s.copyHeight rect) s.framebuffer = some fb ∧
      fb.length = s.framebuffer.length ∧
      ∀ r j, j < s.width * 4 → fb[r * (s.width * 4) + j]? =
        if (rect.y ≤ r ∧ r < rect.y + s.copyHeight rect) ∧
            (rect.x * 4 ≤ j ∧ j < rect.x * 4 + s.copyWidth rect * 4) then
          pixels[(r - rect.y) * (rect.width * 4) + (j - rect.x * 4)]?
        else s.framebuffer[r * (s.width * 4) + j]? := by
  rw [copyRows_congr (fun r hr ↦ (ranges_eq hbits hs hfit hpos hr).1)
    (fun r hr ↦ (ranges_eq hbits hs hfit hpos hr).2)]
  refine copyRows_raster (columns_in_range hpos) (fun r hr ↦ ?_) fun r hr ↦ ?_
  · rw [hlen]
    exact source_in_range hr
  · rw [hs.framebuffer_length]
    exact target_in_range hpos hr

/-! ### The cases of the handler -/

namespace OnDesktop

variable {header pixels : List UInt8}

theorem not_empty (hs : s.OnDesktop) : ¬(s.width = 0 ∨ s.height = 0) := by
  have := hs.width_pos
  have := hs.height_pos
  omega

/-- A wrong size is reported. -/
theorem applyBitmap_of_ne (hs : s.OnDesktop) (hheader : readHeader header = some rect)
    (hne : pixels.length ≠ payloadSize bits rect) :
    applyBitmap bits s header pixels = some { s with error := some invalidBitmap } := by
  simp only [applyBitmap, hheader, if_neg hs.not_empty, if_pos hne]

/-- A rectangle off the desktop changes nothing. -/
theorem applyBitmap_of_clipped (hs : s.OnDesktop) (hheader : readHeader header = some rect)
    (heq : pixels.length = payloadSize bits rect)
    (hclip : s.copyWidth rect = 0 ∨ s.copyHeight rect = 0) :
    applyBitmap bits s header pixels = some s := by
  simp only [applyBitmap, hheader, if_neg hs.not_empty, if_neg (not_not.2 heq), if_pos hclip]

/-- Everything else goes to the row loop. -/
theorem applyBitmap_of_visible (hs : s.OnDesktop) (hheader : readHeader header = some rect)
    (heq : pixels.length = payloadSize bits rect)
    (hclip : ¬(s.copyWidth rect = 0 ∨ s.copyHeight rect = 0)) :
    applyBitmap bits s header pixels =
      (copyRows pixels (sourceRange bits s rect) (targetRange bits s rect) (s.copyHeight rect)
        s.framebuffer).map fun framebuffer ↦
          { s with framebuffer, frameVersion := s.frameVersion + 1, hasFrame := true } := by
  simp only [applyBitmap, hheader, if_neg hs.not_empty, if_neg (not_not.2 heq), if_neg hclip]

end OnDesktop

end SessionState

end RdpMcp
