import Mathlib.Algebra.Order.Ring.Int
import Mathlib.Tactic.Positivity
import Mathlib.Tactic.Ring
import RdpMcp.Native.EndPaint
import RdpMcp.Session.Bitmap
import RdpMcp.Worker.Codec

/-!
# The dirty rectangle, from one buffer to the other

A paint in the worker ends as pixels in the parent, and two programs in two languages have computed
addresses on the way: `cbEndPaint` clips and converts, `applyBitmap` clips again and copies. The
specification is neither: it is a statement about coordinates. **A pixel is visible** when it lies
on the desktop and in the invalid rectangle; after the update, visible pixels of the framebuffer
show the drawing buffer's colors, all others are as they were, and the version counts one more
frame, unless nothing is visible, in which case nothing is sent (`end_paint_mirrored`).

The one thing the code takes for granted is that the address of a row fits a C `int`. With a large
enough stride it does not (`endPaint_overflows`).
-/

open Raster LittleEndian ByteReader

namespace RdpMcp

namespace Gdi

/-- A pixel of the desktop, by row and column, that lies in the invalid rectangle. -/
def Visible (gdi : Gdi) (r c : ℕ) : Prop :=
  ((r : ℤ) < gdi.height.toInt ∧ (c : ℤ) < gdi.width.toInt) ∧
    (gdi.invalid.y.toInt ≤ r ∧ (r : ℤ) < gdi.invalid.y.toInt + gdi.invalid.h.toInt) ∧
    gdi.invalid.x.toInt ≤ c ∧ (c : ℤ) < gdi.invalid.x.toInt + gdi.invalid.w.toInt

instance (gdi : Gdi) (r c : ℕ) : Decidable (gdi.Visible r c) :=
  inferInstanceAs (Decidable (_ ∧ _))

/-- The four bytes of a pixel of the drawing buffer. -/
def pixel (gdi : Gdi) (r c : ℕ) : Option (List UInt8) :=
  slice gdi.primaryBuffer (r * gdi.stride.toInt.toNat + c * 4)
    (r * gdi.stride.toInt.toNat + c * 4 + 4)

/-- A drawing buffer of supported size, its rows at least as far apart as they are long, and an
invalid rectangle whose far edges are integers. -/
structure Wellformed (gdi : Gdi) : Prop where
  width : 1 ≤ gdi.width.toInt ∧ gdi.width.toInt ≤ 8192
  height : 1 ≤ gdi.height.toInt ∧ gdi.height.toInt ≤ 8192
  stride : 4 * gdi.width.toInt ≤ gdi.stride.toInt
  buffer : gdi.stride.toInt * gdi.height.toInt ≤ gdi.primaryBuffer.length
  right : int32 (gdi.invalid.x.toInt + gdi.invalid.w.toInt) ≠ none
  bottom : int32 (gdi.invalid.y.toInt + gdi.invalid.h.toInt) ≠ none

end Gdi

/-- The four bytes of a pixel of the framebuffer. -/
def SessionState.pixel (s : SessionState) (r c : ℕ) : Option (List UInt8) :=
  slice s.framebuffer ((r * s.width + c) * 4) ((r * s.width + c) * 4 + 4)

/-! ### Clipping -/

theorem int32_ne_none_iff {n : ℤ} : int32 n ≠ none ↔ -2147483648 ≤ n ∧ n < 2147483648 := by
  rw [int32]
  split <;> simp_all

/-- **Clipping computes the intersection** of a range with the desktop, and never overflows. -/
theorem clip_eq {x w d : ℤ} (hx : -2147483648 ≤ x ∧ x < 2147483648)
    (hsum : -2147483648 ≤ x + w ∧ x + w < 2147483648) (hd : 1 ≤ d ∧ d ≤ 8192) :
    ∃ w', clipLow x w = some (max x 0, w') ∧
      clipHigh (max x 0) w' d = some (min (x + w) d - max x 0) := by
  have hclip : ∀ {x w : ℤ}, 0 ≤ x → -2147483648 ≤ x + w ∧ x + w < 2147483648 → x < 2147483648 →
      clipHigh x w d = some (min (x + w) d - x) := by
    intro x w hx hsum hx'
    rw [clipHigh, int32_of_range hsum.1 hsum.2]
    show (if x + w > d then int32 (d - x) else some w) = _
    split
    case isTrue hout =>
      rw [int32_of_range (by omega) (by omega), min_eq_right (by omega)]
    case isFalse hin =>
      rw [min_eq_left (by omega), show x + w - x = w by omega]
  by_cases hneg : x < 0
  · refine ⟨w + x, ?_, ?_⟩
    · rw [clipLow, if_pos hneg, int32_of_range (by omega) (by omega), max_eq_right hneg.le]
      rfl
    · rw [max_eq_right hneg.le, hclip (le_refl 0) (by omega) (by omega)]
      congr 2
      omega
  · refine ⟨w, ?_, ?_⟩
    · rw [clipLow, if_neg hneg, max_eq_left (not_lt.1 hneg)]
    · rw [max_eq_left (not_lt.1 hneg), hclip (not_lt.1 hneg) hsum hx.2]

/-! ### Conversion -/

/-- The colors of a pixel, from BGRX to RGBA. -/
def Swizzled (p q : Option (List UInt8)) : Prop :=
  ∃ b g r x, p = some [b, g, r, x] ∧ q = some [r, g, b, 255]

theorem Swizzled.eq_some_getD {p q : Option (List UInt8)} (h : Swizzled p q) :
    q = some (q.getD []) := by
  obtain ⟨b, g, r, x, -, rfl⟩ := h
  rfl

/-- A pixel inside the buffer is converted. -/
theorem swizzled_convertPixel {buffer : List UInt8} {a : ℕ} (h : a + 4 ≤ buffer.length) :
    Swizzled (slice buffer a (a + 4)) (convertPixel buffer a) := by
  have hread : ∀ k < 4, ∃ v, buffer[a + k]? = some v ∧ readByte buffer ((a : ℤ) + k) = some v := by
    intro k hk
    refine ⟨buffer[a + k], List.getElem?_eq_getElem (by omega), ?_⟩
    rw [readByte, if_pos (by omega), show ((a : ℤ) + k).toNat = a + k by omega,
      List.getElem?_eq_getElem (by omega)]
  obtain ⟨b, hb, hb'⟩ := hread 0 (by omega)
  obtain ⟨g, hg, hg'⟩ := hread 1 (by omega)
  obtain ⟨r, hr, hr'⟩ := hread 2 (by omega)
  obtain ⟨x, hx, -⟩ := hread 3 (by omega)
  refine ⟨b, g, r, x, slice_eq_some (show a + [b, g, r, x].length ≤ _ from h) ?_, ?_⟩
  · intro k hk
    match k, hk with
    | 0, _ => exact hb
    | 1, _ => exact hg
    | 2, _ => exact hr
    | 3, _ => exact hx
  · have hblue : readByte buffer a = some b := by simpa using hb'
    have hgreen : readByte buffer (a + 1) = some g := by simpa using hg'
    have hred : readByte buffer (a + 2) = some r := by simpa using hr'
    rw [convertPixel, hred, hgreen, hblue]
    rfl

section Convert

variable {gdi : Gdi} {X Y W H : ℕ}

/-- The row loop, once its addresses are integers. -/
theorem convertRow_of_int32 {x y line offset column : ℤ} {w row : ℕ} {pixels : List (List UInt8)}
    (hline : int32 (y + row) = some line) (hoffset : int32 (line * gdi.stride.toInt) = some offset)
    (hcolumn : int32 (x * 4) = some column)
    (hpixels : ((List.range w).mapM fun col : ℕ ↦
      convertPixel gdi.primaryBuffer (offset + column + col * 4)) = some pixels) :
    convertRow gdi x y w row = some pixels.flatten := by
  simp only [convertRow, hline, hoffset, hcolumn, hpixels, Option.bind_eq_bind, Option.bind_some,
    Option.pure_def]

/-- A visible row is read in range, without overflow, if its address is a C integer. -/
theorem exists_convertRow (hg : gdi.Wellformed) (hX : X + W ≤ gdi.width.toInt) {row : ℕ}
    (hY : Y + row < gdi.height.toInt)
    (hrow : ((Y + row : ℕ) : ℤ) * gdi.stride.toInt < 2147483648) :
    ∃ pixels : ℕ → List UInt8, convertRow gdi X Y W row =
        some ((List.range W).map pixels).flatten ∧
      ∀ col < W, Swizzled (gdi.pixel (Y + row) (X + col)) (some (pixels col)) := by
  obtain ⟨stride, hstride⟩ := Int.eq_ofNat_of_zero_le
    (show 0 ≤ gdi.stride.toInt by have := hg.stride; have := hg.width; omega)
  have hwidth := hg.width
  have hlong := hg.stride
  have hheight := hg.height
  have hbuffer := hg.buffer
  rw [hstride] at hrow hlong hbuffer
  have hline : (Y + row + 1) * stride ≤ gdi.primaryBuffer.length := by
    have hmul : ((Y + row + 1 : ℕ) : ℤ) * stride ≤ stride * gdi.height.toInt := by
      rw [mul_comm]
      exact mul_le_mul_of_nonneg_left (by omega) (by omega)
    exact_mod_cast hmul.trans hbuffer
  rw [Nat.add_mul _ 1, Nat.one_mul] at hline
  have hpixel : ∀ col < W, Swizzled (gdi.pixel (Y + row) (X + col)) (convertPixel
      gdi.primaryBuffer (((Y + row : ℕ) : ℤ) * stride + (X : ℤ) * 4 + (col : ℤ) * 4)) := by
    intro col hcol
    have haddress : ((Y + row : ℕ) : ℤ) * stride + (X : ℤ) * 4 + (col : ℤ) * 4 =
        (((Y + row) * stride + (X + col) * 4 : ℕ) : ℤ) := by
      push_cast
      ring
    rw [haddress, Gdi.pixel, hstride, Int.toNat_natCast]
    exact swizzled_convertPixel (by omega)
  refine ⟨fun col : ℕ ↦ (convertPixel gdi.primaryBuffer
    (((Y + row : ℕ) : ℤ) * stride + (X : ℤ) * 4 + (col : ℤ) * 4)).getD [], ?_, fun col hcol ↦ ?_⟩
  · have hmap : (List.range W).mapM (fun col : ℕ ↦ convertPixel gdi.primaryBuffer
        (((Y + row : ℕ) : ℤ) * stride + (X : ℤ) * 4 + (col : ℤ) * 4)) =
        some ((List.range W).map fun col : ℕ ↦ (convertPixel gdi.primaryBuffer
          (((Y + row : ℕ) : ℤ) * stride + (X : ℤ) * 4 + (col : ℤ) * 4)).getD []) :=
      mapM_range_eq_some fun col hcol ↦ (hpixel col hcol).eq_some_getD
    have hpos : (0 : ℤ) ≤ ((Y + row : ℕ) : ℤ) * stride := by positivity
    have hsum : (Y : ℤ) + row = ((Y + row : ℕ) : ℤ) := by push_cast; ring
    have hline' : int32 ((Y : ℤ) + row) = some ((Y + row : ℕ) : ℤ) := by
      rw [hsum]
      exact int32_of_range (by omega) (by omega)
    have hoffset : int32 (((Y + row : ℕ) : ℤ) * gdi.stride.toInt) =
        some (((Y + row : ℕ) : ℤ) * stride) := by
      rw [hstride]
      exact int32_of_range (by omega) hrow
    exact convertRow_of_int32 hline' hoffset (int32_of_range (by omega) (by omega)) hmap
  · have hcolors := hpixel col hcol
    rw [hcolors.eq_some_getD] at hcolors
    exact hcolors

/-- **The visible part is converted**, row by row and in range. -/
theorem exists_rgba (hg : gdi.Wellformed) (hX : X + W ≤ gdi.width.toInt)
    (hY : Y + H ≤ gdi.height.toInt)
    (hrows : ∀ row < H, ((Y + row : ℕ) : ℤ) * gdi.stride.toInt < 2147483648) :
    ∃ rows, (List.range H).mapM (convertRow gdi X Y W) = some rows ∧
      rows.flatten.length = W * H * 4 ∧
      ∀ row < H, ∀ col < W, Swizzled (gdi.pixel (Y + row) (X + col))
        (slice rows.flatten ((row * W + col) * 4) ((row * W + col) * 4 + 4)) := by
  have hconvert : ∀ row < H, ∃ pixels : ℕ → List UInt8, convertRow gdi X Y W row =
      some ((List.range W).map pixels).flatten ∧
      ∀ col < W, Swizzled (gdi.pixel (Y + row) (X + col)) (some (pixels col)) :=
    fun row hrow ↦ exists_convertRow hg hX (by omega) (hrows row hrow)
  choose! pixels hline hcolors using hconvert
  have hfour : ∀ row < H, ∀ col < W, (pixels row col).length = 4 := by
    intro row hrow col hcol
    obtain ⟨b, g, r, x, -, h⟩ := hcolors row hrow col hcol
    rw [Option.some.inj h]
    rfl
  have hwide : ∀ row < H, ((List.range W).map (pixels row)).flatten.length = W * 4 :=
    fun row hrow ↦ length_flatten_map_range (hfour row hrow)
  have hlength := length_flatten_map_range hwide
  refine ⟨_, mapM_range_eq_some hline, ?_, fun row hrow col hcol ↦ ?_⟩
  · rw [hlength, ← Nat.mul_assoc, Nat.mul_comm H]
  · have hlast : (row + 1) * (W * 4) ≤ H * (W * 4) := Nat.mul_le_mul_right _ hrow
    rw [Nat.add_mul, Nat.one_mul] at hlast
    have hoffset : (row * W + col) * 4 = row * (W * 4) + col * 4 := by ring
    obtain ⟨b, g, r, x, hp, hq⟩ := hcolors row hrow col hcol
    refine ⟨b, g, r, x, hp,
      slice_eq_some (show _ + [r, g, b, 255].length ≤ _ from ?_) fun k hk ↦ ?_⟩
    · rw [hlength, hoffset]
      show row * (W * 4) + col * 4 + 4 ≤ _
      omega
    · have hk' : k < 4 := hk
      rw [hoffset, Nat.add_assoc, getElem?_flatten_map_range hwide hrow (by omega),
        getElem?_flatten_map_range (hfour row hrow) hcol hk', Option.some.inj hq]

end Convert

/-! ### The callback -/

namespace Gdi

/-- The first visible column, if there is one. -/
def left (gdi : Gdi) : ℤ :=
  max gdi.invalid.x.toInt 0

/-- The first visible row, if there is one. -/
def top (gdi : Gdi) : ℤ :=
  max gdi.invalid.y.toInt 0

/-- The number of visible columns, or something that is not positive. -/
def across (gdi : Gdi) : ℤ :=
  min (gdi.invalid.x.toInt + gdi.invalid.w.toInt) gdi.width.toInt - gdi.left

/-- The number of visible rows, or something that is not positive. -/
def down (gdi : Gdi) : ℤ :=
  min (gdi.invalid.y.toInt + gdi.invalid.h.toInt) gdi.height.toInt - gdi.top

theorem visible_iff {gdi : Gdi} {r c : ℕ} :
    gdi.Visible r c ↔ (gdi.top ≤ r ∧ (r : ℤ) < gdi.top + gdi.down) ∧
      gdi.left ≤ c ∧ (c : ℤ) < gdi.left + gdi.across := by
  simp only [Visible, left, top, across, down]
  omega

/-- Nothing is visible exactly when one of the clipped extents is not positive. -/
theorem not_visible_iff {gdi : Gdi} :
    (¬∃ r c, gdi.Visible r c) ↔ gdi.across ≤ 0 ∨ gdi.down ≤ 0 := by
  have hleft : 0 ≤ gdi.left := le_max_right _ _
  have htop : 0 ≤ gdi.top := le_max_right _ _
  constructor
  · intro h
    by_contra hpos
    refine h ⟨gdi.top.toNat, gdi.left.toNat, visible_iff.2 ?_⟩
    omega
  · rintro h ⟨r, c, hvis⟩
    rw [visible_iff] at hvis
    omega

/-- The callback on a desktop: clip, then convert what is left. -/
theorem cbEndPaint_eq {gdi : Gdi} (hg : gdi.Wellformed) (hnull : gdi.invalidNull = false) :
    cbEndPaint gdi =
      if gdi.across ≤ 0 ∨ gdi.down ≤ 0 then some none
      else ((List.range gdi.down.toNat).mapM
        (convertRow gdi gdi.left gdi.top gdi.across.toNat)).map fun rows ↦
          some ⟨gdi.left, gdi.top, gdi.across, gdi.down, rows.flatten⟩ := by
  have hdim : ¬(gdi.width.toInt ≤ 0 ∨ gdi.height.toInt ≤ 0) := by
    have := hg.width
    have := hg.height
    omega
  have hrange : ∀ i : Int32, -2147483648 ≤ i.toInt ∧ i.toInt < 2147483648 :=
    fun i ↦ ⟨i.le_toInt, i.toInt_lt⟩
  obtain ⟨w, hw, hw'⟩ := clip_eq (hrange gdi.invalid.x) (int32_ne_none_iff.1 hg.right) hg.width
  obtain ⟨h, hh, hh'⟩ := clip_eq (hrange gdi.invalid.y) (int32_ne_none_iff.1 hg.bottom) hg.height
  simp only [cbEndPaint, hnull, if_neg hdim, hw, hh, hw', hh', Option.bind_eq_bind,
    Option.bind_some, Bool.false_eq_true, if_false, Option.map_eq_bind]
  rfl

end Gdi

/-! ### The message -/

section Update

variable {X Y W H : ℕ}

/-- The header a rectangle is sent with. -/
def bitmapHeader (X Y W H : ℕ) : List UInt8 :=
  uint16Bytes X ++ uint16Bytes Y ++ uint16Bytes W ++ uint16Bytes H

theorem ofBytes_uint16Bytes {n : ℕ} (h : n < 65536) : ofBytes (uint16Bytes n) = n := by
  rw [uint16Bytes, show ((n : ℤ) % 65536).toNat = n by omega]
  exact ofBytes_toBytes_of_lt h

/-- The parent reads the rectangle back. -/
theorem readHeader_bitmapHeader (hX : X < 65536) (hY : Y < 65536) (hW : W < 65536)
    (hH : H < 65536) : readHeader (bitmapHeader X Y W H) = some ⟨X, Y, W, H⟩ := by
  have hread : readHeader (bitmapHeader X Y W H) = some ⟨ofBytes (uint16Bytes X),
      ofBytes (uint16Bytes Y), ofBytes (uint16Bytes W), ofBytes (uint16Bytes H)⟩ := rfl
  rw [hread, ofBytes_uint16Bytes hX, ofBytes_uint16Bytes hY, ofBytes_uint16Bytes hW,
    ofBytes_uint16Bytes hH]

/-- A clipped rectangle is a message the protocol carries, and is sent as it is. -/
theorem outputSendBitmap_eq {rgba : List UInt8} (hW : W ≤ 8192) (hH : H ≤ 8192)
    (hlen : rgba.length = W * H * 4) :
    Message.Sendable ⟨msgBitmapUpdate, bitmapHeader X Y W H, rgba⟩ ∧
      outputSendBitmap ⟨X, Y, W, H, rgba⟩ =
        .ok (wires [⟨msgBitmapUpdate, bitmapHeader X Y W H, rgba⟩]) := by
  have harea : W * H ≤ 8192 * 8192 := Nat.mul_le_mul hW hH
  have hheader : (bitmapHeader X Y W H).length = 8 := rfl
  have hsend : Message.Sendable ⟨msgBitmapUpdate, bitmapHeader X Y W H, rgba⟩ := by
    refine ⟨?_, fun _ ↦ hheader⟩
    simp only [hheader, hlen, maxPayload]
    omega
  refine ⟨hsend, ?_⟩
  have hpixels : rgba.take (UInt32.ofNat rgba.length).toNat = rgba := by
    rw [UInt32.toNat_ofNat_of_lt' (show rgba.length < 2 ^ 32 by omega), List.take_length]
  have hsub : (bitmapHeader X Y W H).take (8 : UInt32).toNat = bitmapHeader X Y W H := rfl
  have hwires := Message.writeMessage_of_sendable hsend
  rw [outputSendBitmap, nativeOutput, hpixels]
  rw [bitmapHeader] at hsub
  rw [hsub, ← bitmapHeader, hwires, wires, List.flatMap_singleton]

/-- The parent's handler on a bitmap, for a session that is not stopped. -/
theorem handleNativeOutput_bitmap {fromSlice : List UInt8 → Option JsonValue} {s : SessionState}
    (hlive : s.disconnected = false) (header pixels : List UInt8) :
    handleNativeOutput 64 fromSlice s msgBitmapUpdate header pixels =
      applyBitmap 64 s header pixels := by
  simp [handleNativeOutput, hlive, show msgBitmapUpdate ≠ msgDisconnected by decide,
    show msgBitmapUpdate ≠ msgReady by decide, show msgBitmapUpdate ≠ msgConnected by decide,
    show msgBitmapUpdate ≠ msgResized by decide]

end Update

/-! ### The framebuffer -/

/-- **A rectangle is painted pixel by pixel**, as far as it lies on the desktop. -/
theorem exists_painted {s : SessionState} (hs : s.OnDesktop) {X Y W H : ℕ} (hX : X < 65536)
    (hY : Y < 65536) (hW : W < 65536) (hH : H < 65536) {rgba : List UInt8}
    (hlen : rgba.length = W * H * 4) :
    ∃ t, applyBitmap 64 s (bitmapHeader X Y W H) rgba = some t ∧ t.error = s.error ∧
      (¬(s.copyWidth ⟨X, Y, W, H⟩ = 0 ∨ s.copyHeight ⟨X, Y, W, H⟩ = 0) →
        t.frameVersion = s.frameVersion + 1) ∧
      (t.width = s.width ∧ t.height = s.height ∧
        t.framebuffer.length = s.framebuffer.length) ∧
      ∀ r < s.height, ∀ c < s.width, t.pixel r c =
        if (Y ≤ r ∧ r < Y + H) ∧ X ≤ c ∧ c < X + W then
          slice rgba (((r - Y) * W + (c - X)) * 4) (((r - Y) * W + (c - X)) * 4 + 4)
        else s.pixel r c := by
  have hheader := readHeader_bitmapHeader hX hY hW hH
  have hfit := size_lt_of_readHeader hheader
  have hsize := hlen.trans (payloadSize_eq hfit).symm
  by_cases hclip : s.copyWidth ⟨X, Y, W, H⟩ = 0 ∨ s.copyHeight ⟨X, Y, W, H⟩ = 0
  · refine ⟨s, hs.applyBitmap_of_clipped hheader hsize hclip, rfl, absurd hclip, ⟨rfl, rfl, rfl⟩,
      fun r hr c hc ↦ (if_neg ?_).symm⟩
    have hnone : min W (s.width - X) = 0 ∨ min H (s.height - Y) = 0 := hclip
    omega
  have happly := hs.applyBitmap_of_visible hheader hsize hclip
  obtain ⟨fb, hfb, hfblen, hread⟩ := SessionState.copyRows_onDesktop (by omega) hs hfit hlen
    (Nat.pos_of_ne_zero (not_or.1 hclip).1)
  rw [hfb, Option.map_some] at happly
  refine ⟨_, happly, rfl, fun _ ↦ rfl, ⟨rfl, rfl, hfblen⟩, fun r hr c hc ↦ ?_⟩
  have hwidth : s.copyWidth ⟨X, Y, W, H⟩ = min W (s.width - X) := rfl
  have hheight : s.copyHeight ⟨X, Y, W, H⟩ = min H (s.height - Y) := rfl
  rw [hwidth, hheight] at hread
  -- the four bytes of a pixel, at its row and column
  have hlast : (r + 1) * s.width ≤ s.height * s.width := Nat.mul_le_mul_right _ hr
  rw [Nat.add_mul, Nat.one_mul, Nat.mul_comm s.height] at hlast
  have hroom : (r * s.width + c) * 4 + 4 ≤ s.framebuffer.length := by
    rw [hs.framebuffer_length]
    omega
  have hoffset : (r * s.width + c) * 4 = r * (s.width * 4) + c * 4 := by ring
  have hbytes : ∀ k < 4, fb[(r * s.width + c) * 4 + k]? =
      if (Y ≤ r ∧ r < Y + H) ∧ X ≤ c ∧ c < X + W then
        rgba[((r - Y) * W + (c - X)) * 4 + k]?
      else s.framebuffer[(r * s.width + c) * 4 + k]? := by
    intro k hk
    rw [hoffset, Nat.add_assoc, hread r (c * 4 + k) (by omega)]
    by_cases hin : (Y ≤ r ∧ r < Y + H) ∧ X ≤ c ∧ c < X + W
    · have hcol : c * 4 + k - X * 4 = (c - X) * 4 + k := by omega
      rw [if_pos hin, if_pos (by simp only; omega), hcol]
      congr 1
      ring
    · rw [if_neg hin, if_neg (by simp only; omega)]
  by_cases hin : (Y ≤ r ∧ r < Y + H) ∧ X ≤ c ∧ c < X + W
  · rw [if_pos hin]
    refine slice_congr (hfblen.symm ▸ hroom) ?_ fun k hk ↦ (hbytes k hk).trans (if_pos hin)
    have hrow : (r - Y + 1) * W ≤ H * W := Nat.mul_le_mul_right _ (by omega)
    rw [Nat.add_mul, Nat.one_mul, Nat.mul_comm H] at hrow
    omega
  · rw [if_neg hin]
    exact slice_congr (hfblen.symm ▸ hroom) hroom fun k hk ↦ (hbytes k hk).trans (if_neg hin)

/-! ### The way of a paint -/

/-- **A paint is sent as one bitmap**, the visible rectangle in its colors, or not at all. -/
theorem exists_update {gdi : Gdi} (hg : gdi.Wellformed) (hnull : gdi.invalidNull = false)
    (hrows : ∀ r c, gdi.Visible r c → (r : ℤ) * gdi.stride.toInt < 2147483648) :
    (cbEndPaint gdi = some none ∧ ∀ r c, ¬gdi.Visible r c) ∨
      ∃ (X Y W H : ℕ) (rgba : List UInt8), cbEndPaint gdi = some (some ⟨X, Y, W, H, rgba⟩) ∧
        (0 < W ∧ 0 < H) ∧ ((X + W : ℤ) ≤ gdi.width.toInt ∧ (Y + H : ℤ) ≤ gdi.height.toInt) ∧
        rgba.length = W * H * 4 ∧
        (∀ r c, gdi.Visible r c ↔ (Y ≤ r ∧ r < Y + H) ∧ X ≤ c ∧ c < X + W) ∧
        ∀ r c, gdi.Visible r c → Swizzled (gdi.pixel r c)
          (slice rgba (((r - Y) * W + (c - X)) * 4) (((r - Y) * W + (c - X)) * 4 + 4)) := by
  rw [Gdi.cbEndPaint_eq hg hnull]
  by_cases hnone : gdi.across ≤ 0 ∨ gdi.down ≤ 0
  · exact .inl ⟨if_pos hnone, fun r c h ↦ Gdi.not_visible_iff.2 hnone ⟨r, c, h⟩⟩
  rw [if_neg hnone]
  -- the clipped rectangle, in natural numbers
  obtain ⟨X, hX⟩ := Int.eq_ofNat_of_zero_le (show 0 ≤ gdi.left from le_max_right _ _)
  obtain ⟨Y, hY⟩ := Int.eq_ofNat_of_zero_le (show 0 ≤ gdi.top from le_max_right _ _)
  obtain ⟨W, hW⟩ := Int.eq_ofNat_of_zero_le (show 0 ≤ gdi.across by omega)
  obtain ⟨H, hH⟩ := Int.eq_ofNat_of_zero_le (show 0 ≤ gdi.down by omega)
  have hvisible (r c : ℕ) : gdi.Visible r c ↔ (Y ≤ r ∧ r < Y + H) ∧ X ≤ c ∧ c < X + W := by
    rw [Gdi.visible_iff, hX, hY, hW, hH]
    omega
  have hright : gdi.left + gdi.across ≤ gdi.width.toInt := by
    rw [Gdi.across]
    omega
  have hbottom : gdi.top + gdi.down ≤ gdi.height.toInt := by
    rw [Gdi.down]
    omega
  rw [hX, hW] at hright
  rw [hY, hH] at hbottom
  rw [hW, hH] at hnone
  obtain ⟨rows, hconvert, hlen, hcolors⟩ := exists_rgba hg hright hbottom fun row hrow ↦
    hrows (Y + row) X ((hvisible _ _).2 (by omega))
  refine .inr ⟨X, Y, W, H, rows.flatten, ?_, by omega, ⟨hright, hbottom⟩, hlen, hvisible,
    fun r c h ↦ ?_⟩
  · rw [hX, hY, hW, hH, Int.toNat_natCast, Int.toNat_natCast, hconvert, Option.map_some]
  · have hin := (hvisible r c).1 h
    have hcolor := hcolors (r - Y) (by omega) (c - X) (by omega)
    rwa [show Y + (r - Y) = r by omega, show X + (c - X) = c by omega] at hcolor

/-- **A paint is mirrored.** If nothing is visible, nothing is sent. Otherwise one message is sent,
and however its bytes arrive, the session's handler is called with it once; afterwards the visible
pixels show the drawing buffer's colors, the others are unchanged, the version counts one more
frame, and no error is set. -/
theorem end_paint_mirrored {ε : Type} (fromSlice : List UInt8 → Option JsonValue) {gdi : Gdi}
    {s : SessionState} (hg : gdi.Wellformed) (hnull : gdi.invalidNull = false) (hs : s.OnDesktop)
    (hlive : s.disconnected = false) (hwidth : gdi.width.toInt = s.width)
    (hheight : gdi.height.toInt = s.height)
    (hrows : ∀ r c, gdi.Visible r c → (r : ℤ) * gdi.stride.toInt < 2147483648) :
    ((¬∃ r c, gdi.Visible r c) → cbEndPaint gdi = some none) ∧
    ((∃ r c, gdi.Visible r c) → ∃ update wire header pixels t,
      cbEndPaint gdi = some (some update) ∧ outputSendBitmap update = .ok wire ∧
      (∀ events : List (ReadEvent UInt8 ε), Reliable events → bytes events = wire →
        readEvents events = ([.handler msgBitmapUpdate header pixels], .ok ())) ∧
      handleNativeOutput 64 fromSlice s msgBitmapUpdate header pixels = some t ∧
      t.error = s.error ∧ t.frameVersion = s.frameVersion + 1 ∧
      (t.width = s.width ∧ t.height = s.height ∧
        t.framebuffer.length = s.framebuffer.length) ∧
      ∀ r < s.height, ∀ c < s.width,
        if gdi.Visible r c then Swizzled (gdi.pixel r c) (t.pixel r c)
        else t.pixel r c = s.pixel r c) := by
  rcases exists_update hg hnull hrows with ⟨hnone, hvisible⟩ |
    ⟨X, Y, W, H, rgba, hpaint, ⟨hW, hH⟩, ⟨hright, hbottom⟩, hlen, hvisible, hcolors⟩
  · exact ⟨fun _ ↦ hnone, fun ⟨r, c, hsome⟩ ↦ absurd hsome (hvisible r c)⟩
  refine ⟨fun hnot ↦ absurd ⟨Y, X, (hvisible Y X).2 (by omega)⟩ hnot, fun _ ↦ ?_⟩
  rw [hwidth] at hright
  rw [hheight] at hbottom
  have hw := hs.width_le
  have hh := hs.height_le
  obtain ⟨hsend, hout⟩ := outputSendBitmap_eq (X := X) (Y := Y) (show W ≤ 8192 by omega)
    (show H ≤ 8192 by omega) hlen
  obtain ⟨t, happly, herror, hversion, hsize, hpixel⟩ := exists_painted hs
    (show X < 65536 by omega) (show Y < 65536 by omega) (show W < 65536 by omega)
    (show H < 65536 by omega) hlen
  have hon : ¬(s.copyWidth ⟨X, Y, W, H⟩ = 0 ∨ s.copyHeight ⟨X, Y, W, H⟩ = 0) := by
    show ¬(min W (s.width - X) = 0 ∨ min H (s.height - Y) = 0)
    omega
  refine ⟨⟨X, Y, W, H, rgba⟩, _, bitmapHeader X Y W H, rgba, t, hpaint, hout,
    fun events hrel hbytes ↦ ?_, (handleNativeOutput_bitmap hlive _ _).trans happly, herror,
    hversion hon, hsize, fun r hr c hc ↦ ?_⟩
  · rw [readEvents_wires hrel (by simpa using hsend) hbytes]
    rfl
  · rw [hpixel r hr c hc]
    by_cases hin : gdi.Visible r c
    · rw [if_pos hin, if_pos ((hvisible r c).1 hin)]
      exact hcolors r c hin
    · rw [if_neg hin, if_neg (mt (hvisible r c).2 hin)]

section Examples

/-- A desktop of two pixels whose left one is invalid, by a rectangle that starts off the desktop.
-/
def halfInvalid : Gdi where
  width := 2
  height := 1
  stride := 8
  primaryBuffer := [10, 20, 30, 0, 40, 50, 60, 0]
  invalidNull := false
  invalid := ⟨-1, 0, 2, 1⟩

/-- The session that shows it, still black. -/
def twoPixels : SessionState where
  connected := true
  width := 2
  height := 1
  framebuffer := [0, 0, 0, 0, 0, 0, 0, 0]

theorem end_paint_mirrored_halfInvalid :
    ∃ header pixels t,
      handleNativeOutput 64 (fun _ ↦ none) twoPixels msgBitmapUpdate header pixels = some t ∧
        t.frameVersion = 1 ∧ Swizzled (halfInvalid.pixel 0 0) (t.pixel 0 0) ∧
      t.pixel 0 1 = twoPixels.pixel 0 1 := by
  have hg : halfInvalid.Wellformed :=
    ⟨by decide, by decide, by decide, by decide, by decide, by decide⟩
  have hs : twoPixels.OnDesktop := ⟨by decide, by decide, by decide, by decide, rfl⟩
  have hvisible : ∀ r c, halfInvalid.Visible r c →
      (r : ℤ) * halfInvalid.stride.toInt < 2147483648 := by
    rintro r c ⟨⟨hr, -⟩, -⟩
    have hr' : (r : ℤ) < 1 := hr
    have hstride : halfInvalid.stride.toInt = 8 := by decide
    rw [hstride]
    omega
  obtain ⟨update, wire, header, pixels, t, -, -, -, hstep, -, hversion, -, hpixel⟩ :=
    (@end_paint_mirrored Unit (fun _ ↦ none) _ _ hg rfl hs rfl rfl rfl hvisible).2
      ⟨0, 0, by decide⟩
  have hleft := hpixel 0 (by decide) 0 (by decide)
  have hright := hpixel 0 (by decide) 1 (by decide)
  rw [if_pos (by decide)] at hleft
  rw [if_neg (by decide)] at hright
  exact ⟨header, pixels, t, hstep, hversion, hleft, hright⟩

/-- A drawing buffer whose rows are a gibibyte apart, with its third row invalid. -/
def farRows : Gdi where
  width := 1
  height := 3
  stride := 1073741824
  primaryBuffer := List.replicate 3221225472 0
  invalidNull := false
  invalid := ⟨0, 2, 1, 1⟩

/-- **The address of a row can overflow**, although the buffer is wellformed: the callback has no
defined behavior then. -/
theorem endPaint_overflows :
    farRows.Wellformed ∧ farRows.invalidNull = false ∧ farRows.Visible 2 0 ∧
      cbEndPaint farRows = none := by
  refine ⟨⟨by decide, by decide, by decide, ?_, by decide, by decide⟩, rfl, by decide, rfl⟩
  rw [farRows, List.length_replicate]
  decide

end Examples

end RdpMcp
