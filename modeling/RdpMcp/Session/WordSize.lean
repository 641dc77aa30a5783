import RdpMcp.Session.Bitmap

/-!
# Bitmaps on 32-bit builds

The size check of `applyBitmap` multiplies two 16-bit fields by four, and that product can need 34
bits. Where it fits in 32, a 32-bit build does what a 64-bit build does. Where it does not, the
64-bit check always rejects the message, since no payload is that long, and the 32-bit check
compares the payload with **the product modulo `2 ^ 32`**.

A payload that matches the wrapped product gets past the check, and from there the two builds never
agree on a desktop the rectangle touches: the 64-bit build reports an error and leaves the frame
version alone, the 32-bit build panics or paints. Only a rectangle entirely off the desktop hides
the difference, and only if the session already reports this very error. `wordSizes_agree_iff` is
the exact condition.
-/

open Raster LittleEndian

namespace RdpMcp

theorem exists_readHeader {header : List UInt8} (h : header.length = 8) :
    ∃ rect, readHeader header = some rect := by
  match header, h with
  | [_, _, _, _, _, _, _, _], _ => exact ⟨_, rfl⟩

/-- The size check computes the true size modulo the word. -/
theorem payloadSize_eq_mod (bits : ℕ) (rect : DirtyRect) :
    payloadSize bits rect = rect.width * rect.height * 4 % 2 ^ bits := by
  simp only [payloadSize, usize, Nat.mod_mul_mod]

/-- Whether any part of a rectangle lies on the desktop. -/
def SessionState.Touches (s : SessionState) (rect : DirtyRect) : Prop :=
  rect.x < s.width ∧ rect.y < s.height

variable {bits : ℕ} {s : SessionState} {rect : DirtyRect} {header pixels : List UInt8}

/-- A rectangle with an area is clipped away exactly when it does not touch the desktop. -/
theorem SessionState.clipped_iff (hw : 0 < rect.width) (hh : 0 < rect.height) :
    s.copyWidth rect = 0 ∨ s.copyHeight rect = 0 ↔ ¬s.Touches rect := by
  simp only [copyWidth, copyHeight, Touches]
  omega

/-! ### Both sizes fit -/

namespace SessionState.OnDesktop

/-- **Two word sizes that both hold the true size do the same**, and neither panics. -/
theorem exists_applyBitmap_of_lt {bits' : ℕ} (hs : s.OnDesktop)
    (hheader : readHeader header = some rect) (hbits : 32 ≤ bits) (hbits' : 32 ≤ bits')
    (hfit : rect.width * rect.height * 4 < 2 ^ bits)
    (hfit' : rect.width * rect.height * 4 < 2 ^ bits') :
    ∃ t, applyBitmap bits s header pixels = some t ∧
      applyBitmap bits' s header pixels = some t := by
  have hsize := payloadSize_eq hfit
  have hsize' := payloadSize_eq hfit'
  by_cases hlen : pixels.length = rect.width * rect.height * 4
  swap
  · exact ⟨_, hs.applyBitmap_of_ne hheader (hsize ▸ hlen),
      hs.applyBitmap_of_ne hheader (hsize' ▸ hlen)⟩
  by_cases hclip : s.copyWidth rect = 0 ∨ s.copyHeight rect = 0
  · exact ⟨s, hs.applyBitmap_of_clipped hheader (hlen.trans hsize.symm) hclip,
      hs.applyBitmap_of_clipped hheader (hlen.trans hsize'.symm) hclip⟩
  have hpos : 0 < s.copyWidth rect := by omega
  obtain ⟨fb, hfb, -⟩ := SessionState.copyRows_onDesktop hbits hs hfit hlen hpos
  -- both loops visit the true addresses, so they are the same loop
  have hsame : copyRows pixels (sourceRange bits s rect) (targetRange bits s rect)
      (s.copyHeight rect) s.framebuffer = copyRows pixels (sourceRange bits' s rect)
      (targetRange bits' s rect) (s.copyHeight rect) s.framebuffer := copyRows_congr
    (fun row hrow ↦ (SessionState.ranges_eq hbits hs hfit hpos hrow).1.trans
      (SessionState.ranges_eq hbits' hs hfit' hpos hrow).1.symm)
    fun row hrow ↦ (SessionState.ranges_eq hbits hs hfit hpos hrow).2.trans
      (SessionState.ranges_eq hbits' hs hfit' hpos hrow).2.symm
  refine ⟨{ s with framebuffer := fb, frameVersion := s.frameVersion + 1, hasFrame := true },
    ?_, ?_⟩
  · rw [hs.applyBitmap_of_visible hheader (hlen.trans hsize.symm) hclip, hfb, Option.map_some]
  · rw [hs.applyBitmap_of_visible hheader (hlen.trans hsize'.symm) hclip, ← hsame, hfb,
      Option.map_some]

end SessionState.OnDesktop

/-! ### The exact condition -/

/-- A payload a worker can send never has a size that needs more than 32 bits. -/
theorem length_ne_of_le (hlen : pixels.length ≤ maxPayload - 8)
    (hbig : 2 ^ 32 ≤ rect.width * rect.height * 4) :
    pixels.length ≠ rect.width * rect.height * 4 := by
  have : maxPayload - 8 < 2 ^ 32 := by decide
  omega

/-- **The 32-bit and the 64-bit build agree on a bitmap message, without a panic, exactly when** its
true size fits in 32 bits, or its payload is not as long as the wrapped size, or it lies off the
desktop of a session that already reports a bad bitmap. -/
theorem wordSizes_agree_iff (hs : s.OnDesktop) (hheader : header.length = 8)
    (hlen : pixels.length ≤ maxPayload - 8) :
    ∃ rect, readHeader header = some rect ∧
      ((∃ t, applyBitmap 32 s header pixels = some t ∧ applyBitmap 64 s header pixels = some t) ↔
        rect.width * rect.height * 4 < 2 ^ 32 ∨
          pixels.length ≠ rect.width * rect.height * 4 % 2 ^ 32 ∨
          (¬s.Touches rect ∧ s.error = some invalidBitmap)) := by
  obtain ⟨rect, hrect⟩ := exists_readHeader hheader
  refine ⟨rect, hrect, ?_⟩
  have hfit64 := size_lt_of_readHeader hrect
  by_cases hfit : rect.width * rect.height * 4 < 2 ^ 32
  · exact iff_of_true (hs.exists_applyBitmap_of_lt hrect (by omega) (by omega) hfit hfit64)
      (Or.inl hfit)
  -- from here on the 64-bit build reports an error
  have h64 := hs.applyBitmap_of_ne hrect ((payloadSize_eq hfit64).symm ▸
    length_ne_of_le hlen (not_lt.1 hfit))
  by_cases hwrap : pixels.length ≠ rect.width * rect.height * 4 % 2 ^ 32
  · exact iff_of_true
      ⟨_, hs.applyBitmap_of_ne hrect ((payloadSize_eq_mod 32 rect).symm ▸ hwrap), h64⟩
      (Or.inr (Or.inl hwrap))
  have heq : pixels.length = payloadSize 32 rect :=
    (not_not.1 hwrap).trans (payloadSize_eq_mod 32 rect).symm
  have hw : 0 < rect.width := Nat.pos_of_ne_zero fun h ↦ by simp [h] at hfit
  have hh : 0 < rect.height := Nat.pos_of_ne_zero fun h ↦ by simp [h] at hfit
  simp only [hfit, hwrap, false_or, h64, Option.some.injEq]
  by_cases hclip : s.copyWidth rect = 0 ∨ s.copyHeight rect = 0
  · rw [hs.applyBitmap_of_clipped hrect heq hclip]
    have herror : s = { s with error := some invalidBitmap } ↔ s.error = some invalidBitmap :=
      ⟨fun h ↦ congrArg SessionState.error h, fun h ↦ by rw [← h]⟩
    simp [(SessionState.clipped_iff hw hh).1 hclip, herror]
  · rw [hs.applyBitmap_of_visible hrect heq hclip]
    refine iff_of_false ?_ fun h ↦ hclip ((SessionState.clipped_iff hw hh).2 h.1)
    rintro ⟨t, hpaint, rfl⟩
    obtain ⟨fb, -, hpainted⟩ := Option.map_eq_some_iff.1 hpaint
    -- a painted state has the next version, a rejected one the old
    have hversion : s.frameVersion + 1 = s.frameVersion :=
      congrArg SessionState.frameVersion hpainted
    exact absurd (UInt64.add_right_inj s.frameVersion |>.1
      (hversion.trans (UInt64.add_zero _).symm)) (by decide)

section OnePixel

/-- A desktop of one black pixel. -/
def blackPixel : SessionState where
  connected := true
  width := 1
  height := 1
  framebuffer := [0, 0, 0, 255]

theorem blackPixel_onDesktop : blackPixel.OnDesktop :=
  ⟨by decide, by decide, by decide, by decide, rfl⟩

/-- The header of a rectangle of 32768 by 32768 pixels at the origin. -/
def hugeHeader : List UInt8 :=
  [0, 0, 0, 0, 0, 128, 0, 128]

theorem wordSizes_agree_onePixel :
    ∃ t, applyBitmap 32 blackPixel [0, 0, 0, 0, 1, 0, 1, 0] [255, 0, 0, 255] = some t ∧
      applyBitmap 64 blackPixel [0, 0, 0, 0, 1, 0, 1, 0] [255, 0, 0, 255] = some t := by
  obtain ⟨rect, hrect, hiff⟩ := wordSizes_agree_iff blackPixel_onDesktop
    (show [0, 0, 0, 0, 1, 0, 1, 0].length = 8 from rfl)
    (show [255, 0, 0, 255].length ≤ maxPayload - 8 by decide)
  obtain rfl : (⟨0, 0, 1, 1⟩ : DirtyRect) = rect := Option.some.inj hrect
  exact hiff.2 (Or.inl (by decide))

/-- **A huge rectangle without pixels aborts a 32-bit server**: its size wraps to nothing, and the
copy of its first row leaves the payload. A 64-bit server reports an error. -/
theorem hugeHeader_panics :
    hugeHeader.length = 8 ∧ applyBitmap 32 blackPixel hugeHeader [] = none ∧
      applyBitmap 64 blackPixel hugeHeader [] =
        some { blackPixel with error := some invalidBitmap } :=
  ⟨rfl, rfl, rfl⟩

end OnePixel

end RdpMcp
