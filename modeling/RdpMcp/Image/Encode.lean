import Mathlib.Tactic.Ring
import RdpMcp.Foundations.Raster
import RdpMcp.Operations.Keyboard
import RdpMcp.Session.State

/-!
# Cropping and downscaling

What happens to a framebuffer on its way to the image encoders: the region is clipped to the
desktop, its rows are copied out, a wide image is scaled down to the nearest pixels, and for JPEG
the alpha channel is dropped. The encoders are parameters.

**Every pixel handed to an encoder is a pixel of the framebuffer**, at a place that two floor
divisions give (`exists_prepare`), and no slice on the way is out of range; and what comes back is
what the encoder has made of these pixels, with their size (`encodedAs_encodeImage`). `none` is a
slice out of range, as in the session. Sizes are `u32` and are never multiplied as such: offsets are
computed in `usize`, which may be as narrow as 32 bits, and scaling in `u64`, where a product of two
`u32` fits.
-/

open Raster

namespace RdpMcp

/-! ### The code -/

/-- `NativeRegion`. -/
structure NativeRegion where
  x : ℕ
  y : ℕ
  width : ℕ
  height : ℕ
  deriving DecidableEq, Repr

/-- RGBA pixels on their way to an encoder. -/
structure RgbaImage where
  width : ℕ
  height : ℕ
  pixels : List UInt8
  deriving DecidableEq, Repr

/-- `EncodedImage`. -/
structure EncodedImage where
  bytes : List UInt8
  mimeType : String
  width : ℕ
  height : ℕ
  deriving DecidableEq, Repr

/-- The encoders. -/
structure Codec where
  jpeg : (quality : ℕ) → (rgb : List UInt8) → (width height : UInt16) → Except String (List UInt8)
  png : (rgba : List UInt8) → (width height : ℕ) → Except String (List UInt8)

/-- `clamp_region`. -/
def clampRegion (requested : Option NativeRegion) (width height : ℕ) :
    Except String NativeRegion :=
  match requested with
  | none => .ok { x := 0, y := 0, width, height }
  | some region =>
    if region.width = 0 ∨ region.height = 0 ∨ region.x ≥ width ∨ region.y ≥ height then
      .error "screenshot region is outside the desktop"
    else
      .ok { region with
        width := min region.width (width - region.x)
        height := min region.height (height - region.y) }

section Usize

variable (bits : ℕ)

/-- `crop_rgba`. -/
def cropRgba (source : List UInt8) (sourceWidth : ℕ) (region : NativeRegion) :
    Option (List UInt8) :=
  let rowBytes := usize bits (region.width * 4)
  let sourceStride := usize bits (sourceWidth * 4)
  let output := List.replicate (usize bits (rowBytes * region.height)) 0
  copyRows source
    (fun row ↦
      let sourceStart := usize bits (usize bits (usize bits (region.y + row) * sourceStride) +
        usize bits (region.x * 4))
      (sourceStart, usize bits (sourceStart + rowBytes)))
    (fun row ↦
      let targetStart := usize bits (row * rowBytes)
      (targetStart, usize bits (targetStart + rowBytes)))
    region.height output

/-- `resize_nearest`. -/
def resizeNearest (source : List UInt8)
    (sourceWidth sourceHeight targetWidth targetHeight : ℕ) : Option (List UInt8) :=
  let output := List.replicate (usize bits (usize bits (targetWidth * targetHeight) * 4)) 0
  (List.range targetHeight).foldlM (fun output targetY ↦
    let sourceY := targetY * sourceHeight / targetHeight
    copyRows source
      (fun targetX ↦
        let sourceX := targetX * sourceWidth / targetWidth
        let sourceOffset :=
          usize bits (usize bits (usize bits (sourceY * sourceWidth) + sourceX) * 4)
        (sourceOffset, usize bits (sourceOffset + 4)))
      (fun targetX ↦
        let targetOffset :=
          usize bits (usize bits (usize bits (targetY * targetWidth) + targetX) * 4)
        (targetOffset, usize bits (targetOffset + 4)))
      targetWidth output) output

/-- What `encode` does about a maximal width: a crop that is wider is scaled down. -/
def limitWidth (pixels : List UInt8) (width height : ℕ) (maxWidth : Option ℕ) :
    Option RgbaImage :=
  match maxWidth.filter fun limit ↦ 0 < limit ∧ limit < width with
  | some limit =>
    let targetHeight := max ((height * limit + width / 2) / width) 1
    (resizeNearest bits pixels width height limit targetHeight).map fun pixels ↦
      { width := limit, height := targetHeight, pixels }
  | none => some { width, height, pixels }

/-- `encode` up to the choice of the encoder. -/
def prepare (rgba : List UInt8) (nativeWidth nativeHeight : ℕ) (maxWidth : Option ℕ)
    (region : Option NativeRegion) : ExceptT String Option RgbaImage := do
  if nativeWidth = 0 ∨ nativeHeight = 0 ∨
      rgba.length ≠ usize bits (usize bits (nativeWidth * nativeHeight) * 4) then
    throw "invalid native framebuffer"
  let region ← ExceptT.mk (some (clampRegion region nativeWidth nativeHeight))
  let pixels ← ExceptT.lift (cropRgba bits rgba nativeWidth region)
  ExceptT.lift (limitWidth bits pixels region.width region.height maxWidth)

/-- `rgba_to_rgb`: the first three bytes of every whole pixel. -/
def rgbaToRgb : List UInt8 → List UInt8
  | r :: g :: b :: _ :: rgba => r :: g :: b :: rgbaToRgb rgba
  | _ => []

/-- The choice of the encoder. -/
def encodeImage (codec : Codec) (format : String) (quality : UInt8) (image : RgbaImage) :
    Except String EncodedImage :=
  let encoded (mimeType : String) (bytes : List UInt8) : EncodedImage :=
    { bytes, mimeType, width := image.width, height := image.height }
  match asciiLowercase format with
  | "jpeg" | "jpg" => do
    let bytes ← codec.jpeg (min (max quality.toNat 1) 100) (rgbaToRgb image.pixels)
      (UInt16.ofNat image.width) (UInt16.ofNat image.height)
    return encoded "image/jpeg" bytes
  | "png" => do
    let bytes ← codec.png image.pixels image.width image.height
    return encoded "image/png" bytes
  | _ => throw "image format must be 'png' or 'jpeg'"

/-- `encode`. -/
def encode (codec : Codec) (rgba : List UInt8) (nativeWidth nativeHeight : ℕ) (format : String)
    (quality : UInt8) (maxWidth : Option ℕ) (region : Option NativeRegion) :
    ExceptT String Option EncodedImage := do
  let image ← prepare bits rgba nativeWidth nativeHeight maxWidth region
  ExceptT.mk (some (encodeImage codec format quality image))

end Usize

/-! ### What an encoder is handed -/

/-- `a / b`, rounded half up. -/
def roundHalfUp (a b : ℕ) : ℕ :=
  (2 * a + b) / (2 * b)

/-- What holds of an image that was cut out of `rgba`, a framebuffer `width` pixels wide, and scaled
down to the width `maxWidth`, unless that is zero. -/
structure RgbaImage.CutFrom (image : RgbaImage) (rgba : List UInt8) (width : ℕ)
    (crop : NativeRegion) (maxWidth : Option ℕ) : Prop where
  width_pos : 1 ≤ image.width
  width_le : image.width ≤ crop.width
  limit_le : ∀ limit ∈ maxWidth, 0 < limit → image.width ≤ limit
  width_scaled : image.width < crop.width → image.width ∈ maxWidth
  height_unscaled : image.width = crop.width → image.height = crop.height
  height_scaled : image.width < crop.width →
    image.height = max (roundHalfUp (crop.height * image.width) crop.width) 1
  height_le : image.height ≤ crop.height
  length : image.pixels.length = image.width * image.height * 4
  /-- Each byte of a pixel is that of the pixel of the framebuffer to its left and above it. -/
  pixel : ∀ i < image.width, ∀ j < image.height, ∀ k < 4,
    image.pixels[(j * image.width + i) * 4 + k]? =
      rgba[((crop.y + j * crop.height / image.height) * width +
        (crop.x + i * crop.width / image.width)) * 4 + k]?

/-- What an encoder makes of an image: it is handed the pixels, for JPEG without their alpha
channel, and their size, and its bytes are reported with this size. -/
structure RgbaImage.EncodedAs (image : RgbaImage) (codec : Codec) (format : String)
    (quality : UInt8) (result : Except String EncodedImage) : Prop where
  jpeg : asciiLowercase format = "jpeg" ∨ asciiLowercase format = "jpg" →
    ∃ (rgb : List UInt8) (width height : UInt16),
      rgb.length = image.width * image.height * 3 ∧
      (∀ place < image.width * image.height, ∀ k < 3,
        rgb[place * 3 + k]? = image.pixels[place * 4 + k]?) ∧
      width.toNat = image.width ∧ height.toNat = image.height ∧
      result = (codec.jpeg (max 1 (min quality.toNat 100)) rgb width height).map fun bytes ↦
        { bytes, mimeType := "image/jpeg", width := image.width, height := image.height }
  png : asciiLowercase format = "png" →
    result = (codec.png image.pixels image.width image.height).map fun bytes ↦
      { bytes, mimeType := "image/png", width := image.width, height := image.height }
  other : asciiLowercase format ∉ ["jpeg", "jpg", "png"] →
    result = .error "image format must be 'png' or 'jpeg'"

/-! ### The region -/

/-- A region with an area, on a desktop of supported size. -/
structure NativeRegion.Within (region : NativeRegion) (width height : ℕ) : Prop where
  width_pos : 0 < region.width
  right_le : region.x + region.width ≤ width
  height_pos : 0 < region.height
  bottom_le : region.y + region.height ≤ height

/-- **A region that is not refused is clipped to the desktop.** -/
theorem within_of_clampRegion {requested : Option NativeRegion} {width height : ℕ}
    {region : NativeRegion} (hwidth : 0 < width) (hheight : 0 < height)
    (h : clampRegion requested width height = .ok region) : region.Within width height := by
  cases requested with
  | none =>
    cases h
    exact ⟨hwidth, by simp, hheight, by simp⟩
  | some asked =>
    rw [clampRegion] at h
    by_cases hout : asked.width = 0 ∨ asked.height = 0 ∨ asked.x ≥ width ∨ asked.y ≥ height
    · rw [if_pos hout] at h
      cases h
    · rw [if_neg hout] at h
      cases h
      exact ⟨by simp only; omega, by simp only; omega, by simp only; omega, by simp only; omega⟩

/-! ### Offsets -/

section Offsets

variable {bits : ℕ} (hbits : 32 ≤ bits)
include hbits

/-- What fits in 32 bits fits in a `usize`. -/
theorem usize_of_lt_word {n : ℕ} (h : n < 2 ^ 32) : usize bits n = n :=
  Nat.mod_eq_of_lt (h.trans_le (Nat.pow_le_pow_right (by omega) hbits))

omit hbits in
/-- Row by row, the cells of a raster are numbered below its size. -/
theorem cell_lt {row rows column columns : ℕ} (hrow : row < rows) (hcolumn : column < columns) :
    row * columns + column < rows * columns := by
  have hmul : (row + 1) * columns ≤ rows * columns := Nat.mul_le_mul_right columns hrow
  rw [Nat.add_mul, Nat.one_mul] at hmul
  omega

/-! ### The crop -/

/-- **A crop is the region**, row by row. -/
theorem exists_cropRgba {rgba : List UInt8} {width height : ℕ} {region : NativeRegion}
    (hregion : region.Within width height) (hwidth : width ≤ 8192) (hheight : height ≤ 8192)
    (hlen : rgba.length = width * height * 4) :
    ∃ pixels, cropRgba bits rgba width region = some pixels ∧
      pixels.length = region.height * (region.width * 4) ∧
      ∀ row < region.height, ∀ k < region.width * 4,
        pixels[row * (region.width * 4) + k]? =
          rgba[(region.y + row) * (width * 4) + region.x * 4 + k]? := by
  obtain ⟨hw, hright, hh, hbottom⟩ := hregion
  have harea : region.height * (region.width * 4) ≤ 8192 * (8192 * 4) :=
    Nat.mul_le_mul (by omega) (by omega)
  have hword {n : ℕ} (h : n < 2 ^ 32) : usize bits n = n := usize_of_lt_word hbits h
  -- a row of the region lies in the framebuffer, and in the crop
  have hsource {row : ℕ} (hrow : row < region.height) :
      (region.y + row) * (width * 4) + region.x * 4 + region.width * 4 ≤ width * height * 4 := by
    have hmul : (region.y + row + 1) * (width * 4) ≤ height * (width * 4) :=
      Nat.mul_le_mul_right _ (by omega)
    rw [Nat.add_mul _ 1, Nat.one_mul, ← Nat.mul_assoc height, Nat.mul_comm height] at hmul
    omega
  have hdesktop : width * height * 4 ≤ 8192 * 8192 * 4 :=
    Nat.mul_le_mul_right 4 (Nat.mul_le_mul hwidth hheight)
  have htarget {row : ℕ} (hrow : row < region.height) :
      row * (region.width * 4) + region.width * 4 ≤ region.height * (region.width * 4) := by
    have hmul : (row + 1) * (region.width * 4) ≤ region.height * (region.width * 4) :=
      Nat.mul_le_mul_right _ hrow
    rwa [Nat.add_mul, Nat.one_mul] at hmul
  have hcrop : cropRgba bits rgba width region =
      copyRows rgba
        (fun row ↦ ((region.y + row) * (width * 4) + region.x * 4,
          (region.y + row) * (width * 4) + region.x * 4 + region.width * 4))
        (fun row ↦ (0 + row * (region.width * 4), 0 + row * (region.width * 4) + region.width * 4))
        region.height (List.replicate (region.height * (region.width * 4)) 0) := by
    rw [cropRgba, hword (n := region.width * 4) (by omega), hword (n := width * 4) (by omega),
      Nat.mul_comm (region.width * 4), hword (n := region.height * (region.width * 4)) (by omega)]
    refine copyRows_congr (fun row hrow ↦ ?_) fun row hrow ↦ ?_
    · have := hsource hrow
      simp only
      rw [hword (n := region.y + row) (by omega),
        hword (n := (region.y + row) * (width * 4)) (by omega),
        hword (n := region.x * 4) (by omega),
        hword (n := (region.y + row) * (width * 4) + region.x * 4) (by omega), hword (by omega)]
    · have := htarget hrow
      simp only [Nat.zero_add]
      rw [hword (n := row * (region.width * 4)) (by omega), hword (by omega)]
  obtain ⟨out, hout, hlength, hrows, -⟩ := @copyRows_gather _ rgba
    (List.replicate (region.height * (region.width * 4)) 0)
    (fun row ↦ (region.y + row) * (width * 4) + region.x * 4) 0 (region.width * 4) region.height
    (fun row hrow ↦ hlen ▸ hsource hrow) (by rw [List.length_replicate, Nat.zero_add])
  rw [List.length_replicate] at hlength
  refine ⟨out, hcrop.trans hout, hlength, fun row hrow k hk ↦ ?_⟩
  rw [← hrows row hrow k hk, Nat.zero_add]

/-! ### The scaling -/

omit hbits in
/-- A coordinate that is scaled stays below the size it is scaled to. -/
theorem scaled_lt {i n m : ℕ} (h : i < n) (hm : 0 < m) : i * m / n < m :=
  Nat.div_lt_of_lt_mul (Nat.mul_lt_mul_of_pos_right h hm)

/-- One row of the scaled image. -/
theorem exists_scaledRow {source dst : List UInt8} {sourceWidth sourceHeight targetWidth
    targetHeight sourceY targetY : ℕ} (hsw : 0 < sourceWidth ∧ sourceWidth ≤ 8192)
    (hsh : sourceHeight ≤ 8192) (htw : targetWidth ≤ 8192) (hth : targetHeight ≤ 8192)
    (hsource : source.length = sourceWidth * sourceHeight * 4)
    (hdst : dst.length = targetHeight * (targetWidth * 4)) (hsy : sourceY < sourceHeight)
    (hty : targetY < targetHeight) :
    ∃ out, copyRows source
        (fun targetX ↦
          let sourceX := targetX * sourceWidth / targetWidth
          let sourceOffset :=
            usize bits (usize bits (usize bits (sourceY * sourceWidth) + sourceX) * 4)
          (sourceOffset, usize bits (sourceOffset + 4)))
        (fun targetX ↦
          let targetOffset :=
            usize bits (usize bits (usize bits (targetY * targetWidth) + targetX) * 4)
          (targetOffset, usize bits (targetOffset + 4)))
        targetWidth dst = some out ∧ out.length = dst.length ∧
      (∀ targetX < targetWidth, ∀ k < 4, out[targetY * (targetWidth * 4) + targetX * 4 + k]? =
        source[(sourceY * sourceWidth + targetX * sourceWidth / targetWidth) * 4 + k]?) ∧
      ∀ i, i < targetY * (targetWidth * 4) ∨ targetY * (targetWidth * 4) + targetWidth * 4 ≤ i →
        out[i]? = dst[i]? := by
  have hword {n : ℕ} (h : n < 2 ^ 32) : usize bits n = n := usize_of_lt_word hbits h
  have hsarea : sourceHeight * sourceWidth ≤ 8192 * 8192 := Nat.mul_le_mul hsh hsw.2
  have htarea : targetHeight * targetWidth ≤ 8192 * 8192 := Nat.mul_le_mul hth htw
  have hscell {targetX : ℕ} (h : targetX < targetWidth) :
      sourceY * sourceWidth + targetX * sourceWidth / targetWidth < sourceHeight * sourceWidth :=
    cell_lt hsy (scaled_lt h hsw.1)
  have htcell {targetX : ℕ} (h : targetX < targetWidth) :
      targetY * targetWidth + targetX < targetHeight * targetWidth := cell_lt hty h
  have hbase : targetY * (targetWidth * 4) = targetY * targetWidth * 4 := (Nat.mul_assoc _ _ _).symm
  have hlen : source.length = sourceHeight * sourceWidth * 4 := by
    rw [hsource, Nat.mul_comm sourceWidth]
  have hlast : targetY * targetWidth + targetWidth ≤ targetHeight * targetWidth := by
    have hmul : (targetY + 1) * targetWidth ≤ targetHeight * targetWidth :=
      Nat.mul_le_mul_right targetWidth hty
    rwa [Nat.add_mul, Nat.one_mul] at hmul
  obtain ⟨out, hout, hlength, hcells, hrest⟩ := @copyRows_gather _ source dst
    (fun targetX ↦ (sourceY * sourceWidth + targetX * sourceWidth / targetWidth) * 4)
    (targetY * (targetWidth * 4)) 4 targetWidth
    (fun targetX h ↦ by have := hscell h; omega)
    (by rw [hdst, hbase, ← Nat.mul_assoc]; omega)
  refine ⟨out, Eq.trans (copyRows_congr (fun targetX h ↦ ?_) fun targetX h ↦ ?_) hout, hlength,
    hcells, hrest⟩
  · have := hscell h
    simp only
    generalize targetX * sourceWidth / targetWidth = sourceX at this ⊢
    rw [hword (n := sourceY * sourceWidth) (by omega),
      hword (n := sourceY * sourceWidth + sourceX) (by omega),
      hword (n := (sourceY * sourceWidth + sourceX) * 4) (by omega), hword (by omega)]
  · have := htcell h
    simp only
    rw [hword (n := targetY * targetWidth) (by omega),
      hword (n := targetY * targetWidth + targetX) (by omega),
      hword (n := (targetY * targetWidth + targetX) * 4) (by omega), hword (by omega), hbase,
      Nat.add_mul]

/-- **Scaling takes the pixel to the left of and above each place.** -/
theorem exists_resizeNearest {source : List UInt8} {sourceWidth sourceHeight targetWidth
    targetHeight : ℕ} (hsw : 0 < sourceWidth ∧ sourceWidth ≤ 8192)
    (hsh : 0 < sourceHeight ∧ sourceHeight ≤ 8192) (htw : targetWidth ≤ 8192)
    (hth : targetHeight ≤ 8192) (hsource : source.length = sourceWidth * sourceHeight * 4) :
    ∃ out, resizeNearest bits source sourceWidth sourceHeight targetWidth targetHeight = some out ∧
      out.length = targetHeight * (targetWidth * 4) ∧
      ∀ targetY < targetHeight, ∀ targetX < targetWidth, ∀ k < 4,
        out[targetY * (targetWidth * 4) + targetX * 4 + k]? =
          source[(targetY * sourceHeight / targetHeight * sourceWidth +
            targetX * sourceWidth / targetWidth) * 4 + k]? := by
  have htarea : targetWidth * targetHeight ≤ 8192 * 8192 := Nat.mul_le_mul htw hth
  have hsize : usize bits (usize bits (targetWidth * targetHeight) * 4) =
      targetHeight * (targetWidth * 4) := by
    rw [usize_of_lt_word hbits (n := targetWidth * targetHeight) (by omega),
      usize_of_lt_word hbits (by omega), Nat.mul_comm targetWidth, Nat.mul_assoc]
  -- what the byte `k` of the row `targetY` is taken from
  let taken (targetY k : ℕ) : Option UInt8 :=
    source[(targetY * sourceHeight / targetHeight * sourceWidth +
      k / 4 * sourceWidth / targetWidth) * 4 + k % 4]?
  rw [resizeNearest, hsize]
  obtain ⟨out, hout, hlength, hrows, -⟩ := @foldlM_fill _ (fun output targetY ↦ _) 0
    (targetWidth * 4) targetHeight (targetHeight * (targetWidth * 4)) taken
    (fun d targetY hty hd ↦ by
      obtain ⟨out, hout, hlength, hcells, hrest⟩ := exists_scaledRow hbits hsw hsh.2 htw hth hsource
        hd (scaled_lt hty hsh.1) hty
      refine ⟨out, hout, hlength.trans hd, fun k hk ↦ ?_, fun i hi ↦ hrest i (by omega)⟩
      have hcell := hcells (k / 4) (by omega) (k % 4) (by omega)
      rw [show 0 + targetY * (targetWidth * 4) + k = targetY * (targetWidth * 4) + k / 4 * 4 + k % 4
        by omega, hcell])
    _ List.length_replicate
  refine ⟨out, hout, hlength, fun targetY hty targetX htx k hk ↦ ?_⟩
  have hbyte := hrows targetY hty (targetX * 4 + k) (by omega)
  rw [Nat.zero_add, ← Nat.add_assoc] at hbyte
  rw [hbyte]
  show source[(_ + (targetX * 4 + k) / 4 * sourceWidth / targetWidth) * 4 +
    (targetX * 4 + k) % 4]? = _
  rw [show (targetX * 4 + k) / 4 = targetX by omega, show (targetX * 4 + k) % 4 = k by omega]

/-! ### The image -/

omit hbits in
theorem roundHalfUp_eq (a b : ℕ) : (a + b / 2) / b = roundHalfUp a b := by
  rw [roundHalfUp, ← Nat.div_div_eq_div_mul, show (2 * a + b) / 2 = a + b / 2 by omega]

omit hbits in
/-- An image that is made narrower does not become higher. -/
theorem roundHalfUp_le {height limit width : ℕ} (h : limit < width) (hheight : 0 < height) :
    roundHalfUp (height * limit) width ≤ height := by
  rw [← roundHalfUp_eq]
  refine Nat.le_of_lt_succ (Nat.div_lt_of_lt_mul ?_)
  have hmul : height * limit + height ≤ height * width := by
    rw [← Nat.mul_succ]
    exact Nat.mul_le_mul_left height h
  rw [Nat.mul_succ, Nat.mul_comm width]
  omega

/-- **Making an image narrower**: its size, and where each pixel comes from. -/
theorem exists_limitWidth {pixels : List UInt8} {width height : ℕ}
    (hwidth : 0 < width ∧ width ≤ 8192) (hheight : 0 < height ∧ height ≤ 8192)
    (hlen : pixels.length = width * height * 4) (maxWidth : Option ℕ) :
    ∃ image, limitWidth bits pixels width height maxWidth = some image ∧
      image.CutFrom pixels width { x := 0, y := 0, width, height } maxWidth := by
  rw [limitWidth]
  cases hlimit : maxWidth.filter fun limit ↦ 0 < limit ∧ limit < width with
  | none =>
    refine ⟨_, rfl, ?_⟩
    have hfits : ∀ limit ∈ maxWidth, 0 < limit → width ≤ limit := by
      intro limit hmem hpos
      have := Option.filter_eq_none_iff.1 hlimit limit hmem
      simp only [decide_eq_true_eq] at this
      omega
    refine ⟨hwidth.1, le_rfl, hfits, fun h ↦ absurd h (lt_irrefl width), fun _ ↦ rfl,
      fun h ↦ absurd h (lt_irrefl width), le_rfl, hlen, fun i hi j hj k _ ↦ ?_⟩
    simp only [Nat.zero_add, Nat.mul_div_cancel i hwidth.1, Nat.mul_div_cancel j hheight.1]
  | some limit =>
    obtain ⟨hmem, hrange⟩ := Option.filter_eq_some_iff.1 hlimit
    obtain ⟨hpos, hlt⟩ : 0 < limit ∧ limit < width := by simpa using hrange
    simp only [roundHalfUp_eq]
    have hround := roundHalfUp_le hlt hheight.1
    generalize htarget : max (roundHalfUp (height * limit) width) 1 = targetHeight
    have hle : targetHeight ≤ height := by omega
    obtain ⟨out, hout, hlength, hcells⟩ := exists_resizeNearest hbits hwidth hheight
      (hlt.le.trans hwidth.2) (hle.trans hheight.2) hlen
    refine ⟨{ width := limit, height := targetHeight, pixels := out }, by rw [hout]; rfl, hpos,
      hlt.le, ?_, fun _ ↦ hmem, fun h ↦ absurd h hlt.ne, fun _ ↦ htarget.symm, hle, ?_,
      fun i hi j hj k hk ↦ ?_⟩
    · intro other hother _
      exact (Option.some.inj (hother.symm.trans hmem)).symm.le
    · rw [hlength]
      ring
    · have hcell := hcells j hj i hi k hk
      rw [show (j * limit + i) * 4 + k = j * (limit * 4) + i * 4 + k by ring, hcell]
      simp only [Nat.zero_add]

/-- A framebuffer that passes the check of `encode`. -/
theorem valid_framebuffer {rgba : List UInt8} {width height : ℕ} (hwidth : 1 ≤ width ∧ width ≤ 8192)
    (hheight : 1 ≤ height ∧ height ≤ 8192) (hlen : rgba.length = width * height * 4) :
    ¬(width = 0 ∨ height = 0 ∨
      rgba.length ≠ usize bits (usize bits (width * height) * 4)) := by
  have hle : width * height ≤ 8192 * 8192 := Nat.mul_le_mul hwidth.2 hheight.2
  rw [usize_of_lt_word hbits (n := width * height) (by omega), usize_of_lt_word hbits (by omega),
    hlen]
  omega

/-- **What an encoder is handed is cut from the framebuffer**, for every region that is not
refused. -/
theorem exists_prepare {rgba : List UInt8} {width height : ℕ} (hwidth : 1 ≤ width ∧ width ≤ 8192)
    (hheight : 1 ≤ height ∧ height ≤ 8192) (hlen : rgba.length = width * height * 4)
    (maxWidth : Option ℕ) {region : Option NativeRegion} {crop : NativeRegion}
    (hcrop : clampRegion region width height = .ok crop) :
    ∃ image : RgbaImage, prepare bits rgba width height maxWidth region = some (.ok image) ∧
      image.CutFrom rgba width crop maxWidth := by
  have hwithin := within_of_clampRegion hwidth.1 hheight.1 hcrop
  obtain ⟨hcw, hright, hch, hbottom⟩ := id hwithin
  obtain ⟨cropped, hcropped, hclen, hrows⟩ :=
    exists_cropRgba hbits hwithin hwidth.2 hheight.2 hlen
  have hclen' : cropped.length = crop.width * crop.height * 4 := by
    rw [hclen]
    ring
  obtain ⟨image, himage, hcut⟩ := exists_limitWidth hbits ⟨hcw, by omega⟩ ⟨hch, by omega⟩ hclen'
    maxWidth
  refine ⟨image, ?_, { hcut with pixel := fun i hi j hj k hk ↦ ?_ }⟩
  · rw [prepare, if_neg (valid_framebuffer hbits hwidth hheight hlen), hcrop]
    show (ExceptT.lift (cropRgba bits rgba width crop) >>= fun pixels ↦
      ExceptT.lift (limitWidth bits pixels crop.width crop.height maxWidth)) = _
    rw [hcropped]
    show ExceptT.lift (limitWidth bits cropped crop.width crop.height maxWidth) = _
    rw [himage]
    rfl
  · have hx : i * crop.width / image.width < crop.width := scaled_lt hi hcw
    have hy : j * crop.height / image.height < crop.height := scaled_lt hj hch
    have hcell := hcut.pixel i hi j hj k hk
    simp only [Nat.zero_add] at hcell
    rw [hcell]
    generalize i * crop.width / image.width = x at hx
    generalize j * crop.height / image.height = y at hy
    have hrow := hrows y hy (x * 4 + k) (by omega)
    rw [show (y * crop.width + x) * 4 + k = y * (crop.width * 4) + (x * 4 + k) by ring, hrow,
      show ((crop.y + y) * width + (crop.x + x)) * 4 + k =
        (crop.y + y) * (width * 4) + crop.x * 4 + (x * 4 + k) by ring]

/-- A region that is refused is an error, and nothing is copied. -/
theorem encode_of_refused {rgba : List UInt8} {width height : ℕ} (hwidth : 1 ≤ width ∧ width ≤ 8192)
    (hheight : 1 ≤ height ∧ height ≤ 8192) (hlen : rgba.length = width * height * 4)
    (maxWidth : Option ℕ) {region : Option NativeRegion} {e : String}
    (hrefused : clampRegion region width height = .error e) (codec : Codec) (format : String)
    (quality : UInt8) :
    encode bits codec rgba width height format quality maxWidth region = some (.error e) := by
  rw [encode, prepare, if_neg (valid_framebuffer hbits hwidth hheight hlen), hrefused]
  rfl

omit hbits in
/-- Everything else reaches the choice of the encoder. -/
theorem encode_of_prepare {rgba : List UInt8} {width height : ℕ} {maxWidth : Option ℕ}
    {region : Option NativeRegion} {image : RgbaImage}
    (h : prepare bits rgba width height maxWidth region = some (.ok image)) (codec : Codec)
    (format : String) (quality : UInt8) :
    encode bits codec rgba width height format quality maxWidth region =
      some (encodeImage codec format quality image) := by
  rw [encode, h]
  rfl

end Offsets

/-! ### The alpha channel -/

theorem length_rgbaToRgb (rgba : List UInt8) : (rgbaToRgb rgba).length = rgba.length / 4 * 3 := by
  fun_induction rgbaToRgb rgba with
  | case1 r g b a rgba ih =>
    simp only [List.length_cons, ih]
    omega
  | case2 rgba hshort =>
    match rgba, hshort with
    | [], _ | [_], _ | [_, _], _ | [_, _, _], _ => simp
    | r :: g :: b :: a :: rgba, hshort => exact absurd rfl (hshort r g b a rgba)

/-- The bytes of a pixel stay together. -/
theorem getElem?_rgbaToRgb {rgba : List UInt8} {place k : ℕ} (hplace : place * 4 + 3 < rgba.length)
    (hk : k < 3) : (rgbaToRgb rgba)[place * 3 + k]? = rgba[place * 4 + k]? := by
  induction place generalizing rgba with
  | zero =>
    match rgba, hplace with
    | r :: g :: b :: a :: rgba, _ =>
      simp only [rgbaToRgb, Nat.zero_mul, Nat.zero_add]
      match k, hk with
      | 0, _ | 1, _ | 2, _ => rfl
  | succ place ih =>
    match rgba, hplace with
    | r :: g :: b :: a :: rgba, hplace =>
      simp only [List.length_cons] at hplace
      rw [rgbaToRgb, show (place + 1) * 3 + k = place * 3 + k + 3 by omega,
        show (place + 1) * 4 + k = place * 4 + k + 4 by omega]
      exact ih (by omega)

/-- **The encoder is handed the image**, and its size is reported. -/
theorem encodedAs_encodeImage {image : RgbaImage}
    (hlen : image.pixels.length = image.width * image.height * 4) (hwidth : image.width ≤ 8192)
    (hheight : image.height ≤ 8192) (codec : Codec) (format : String) (quality : UInt8) :
    image.EncodedAs codec format quality (encodeImage codec format quality image) := by
  have hfits {n : ℕ} (hn : n ≤ 8192) : (UInt16.ofNat n).toNat = n :=
    UInt16.toNat_ofNat_of_lt' (by show n < 65536; omega)
  have hclamp : min (max quality.toNat 1) 100 = max 1 (min quality.toNat 100) := by omega
  refine ⟨fun hjpeg ↦ ?_, fun hpng ↦ ?_, fun hother ↦ ?_⟩
  · refine ⟨rgbaToRgb image.pixels, _, _, ?_, fun place hplace k hk ↦ ?_, hfits hwidth,
      hfits hheight, ?_⟩
    · rw [length_rgbaToRgb, hlen, Nat.mul_div_cancel _ (by decide)]
    · exact getElem?_rgbaToRgb (by omega) hk
    · rw [← hclamp]
      rcases hjpeg with hjpeg | hjpeg <;> rw [encodeImage, hjpeg] <;> rfl
  · rw [encodeImage, hpng]
    rfl
  · rw [encodeImage]
    split
    case h_1 hjpeg | h_2 hjpeg | h_3 hjpeg =>
      rw [hjpeg] at hother
      exact absurd (by decide) hother
    case h_4 => rfl

/-- Encoders that give back what they are handed. -/
def echoCodec : Codec where
  jpeg quality rgb width height :=
    .ok (UInt8.ofNat quality :: width.toNat.toUInt8 :: height.toNat.toUInt8 :: rgb)
  png rgba width height := .ok (width.toUInt8 :: height.toUInt8 :: rgba)

end RdpMcp
