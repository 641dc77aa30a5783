import RdpMcp.Image.Encode
import RdpMcp.Session.Calls
import RdpMcp.Session.Invariant

/-!
# The region of a screenshot

A client asks for a region in native desktop pixels, which may lie partly or entirely off the
desktop, and is answered with a picture. The picture one expects is that of the **overlap** of the
region and the desktop (`ScreenshotRegion.overlap`).

The region is adjusted twice. `Session::screenshot` moves a negative origin to zero **without taking
the part that is cut off from the size**, and raises empty sizes to one; `encode` clips the far
edges and refuses what begins behind them. So a region that begins before the desktop shows too
much, or something where there is nothing to see. `takesOverlap_iff` is the exact condition under
which the picture is the expected one.
-/

namespace RdpMcp

/-! ### The code -/

/-- `ScreenshotRegion`. -/
structure ScreenshotRegion where
  x : Int32
  y : Int32
  width : UInt32
  height : UInt32
  deriving DecidableEq, Repr

/-- The region that `Session::screenshot` hands on. -/
def ScreenshotRegion.native (region : ScreenshotRegion) : NativeRegion where
  x := (max region.x.toInt 0).toNat
  y := (max region.y.toInt 0).toNat
  width := max region.width.toNat 1
  height := max region.height.toNat 1

/-- `Session::screenshot`, with the image and the frame that it is taken from. -/
def screenshotImage (bits : ℕ) (codec : Codec) (format : String) (quality : UInt8)
    (maxWidth : Option ℕ) (region : Option ScreenshotRegion) (view : ScreenshotView) :
    ExceptT String Option (EncodedImage × PreviewFrame) := do
  let captured ← ExceptT.mk (some (captureFrame view))
  let encoded ← encode bits codec captured.pixels captured.width captured.height format quality
    maxWidth (region.map ScreenshotRegion.native)
  return (encoded, captured)

/-! ### The overlap -/

/-- A rectangle of places, up to but not including its right and bottom edges. -/
structure Area where
  left : ℤ
  top : ℤ
  right : ℤ
  bottom : ℤ
  deriving DecidableEq, Repr

/-- There is no place in it. -/
def Area.Empty (area : Area) : Prop :=
  area.right ≤ area.left ∨ area.bottom ≤ area.top

instance (area : Area) : Decidable area.Empty :=
  inferInstanceAs (Decidable (_ ∨ _))

/-- The overlap of a region with a desktop. -/
def ScreenshotRegion.overlap (region : ScreenshotRegion) (width height : ℕ) : Area where
  left := max region.x.toInt 0
  top := max region.y.toInt 0
  right := min (region.x.toInt + region.width.toNat) width
  bottom := min (region.y.toInt + region.height.toNat) height

/-- **The places of the overlap** are those of the region that are places of the desktop. -/
theorem ScreenshotRegion.mem_overlap_iff (region : ScreenshotRegion) (width height : ℕ)
    (column row : ℤ) :
    ((region.overlap width height).left ≤ column ∧ column < (region.overlap width height).right ∧
        (region.overlap width height).top ≤ row ∧ row < (region.overlap width height).bottom) ↔
      (region.x.toInt ≤ column ∧ column < region.x.toInt + region.width.toNat ∧
        region.y.toInt ≤ row ∧ row < region.y.toInt + region.height.toNat) ∧
      (0 ≤ column ∧ column < width ∧ 0 ≤ row ∧ row < height) := by
  simp only [overlap, max_le_iff, lt_min_iff]
  tauto

/-- An image of exactly the places of an area. -/
structure RgbaImage.Shows (image : RgbaImage) (frame : PreviewFrame) (area : Area) : Prop where
  width : (image.width : ℤ) = area.right - area.left
  height : (image.height : ℤ) = area.bottom - area.top
  length : image.pixels.length = image.width * image.height * 4
  pixel : ∀ i < image.width, ∀ j < image.height, ∀ k < 4,
    image.pixels[(j * image.width + i) * 4 + k]? =
      frame.pixels[((area.top.toNat + j) * frame.width + (area.left.toNat + i)) * 4 + k]?

/-- **A screenshot takes an area of a frame**: whatever the encoder, it is an image of the area that
it is handed, and there is an error if the area is empty. -/
def TakesArea (shoot : Codec → String → UInt8 → ExceptT String Option (EncodedImage × PreviewFrame))
    (frame : PreviewFrame) (area : Area) : Prop :=
  if area.Empty then ∀ codec format quality, ∃ e, shoot codec format quality = some (.error e)
  else ∃ image : RgbaImage, image.Shows frame area ∧ ∀ codec format quality, ∃ result,
    shoot codec format quality = some (result.map (·, frame)) ∧
      image.EncodedAs codec format quality result

/-- The region begins behind the desktop, or it has an area and nothing of it is cut off in front of
the desktop that its size does not make up for. -/
def ScreenshotRegion.Fits (region : ScreenshotRegion) (width height : ℕ) : Prop :=
  (width ≤ region.x.toInt ∨ height ≤ region.y.toInt) ∨
    (0 < region.width ∧ 0 < region.height ∧
      (0 ≤ region.x.toInt ∨ width ≤ region.x.toInt + region.width.toNat) ∧
      (0 ≤ region.y.toInt ∨ height ≤ region.y.toInt + region.height.toNat))

/-! ### The condition -/

section Condition

variable {bits : ℕ} {region : ScreenshotRegion} {view : ScreenshotView} {frame : PreviewFrame}

/-- A frame that is captured is that of a desktop. -/
theorem desktop_of_captureFrame (hvalid : view.captured.Valid)
    (hframe : captureFrame view = .ok frame) :
    (1 ≤ frame.width ∧ frame.width ≤ 8192) ∧ (1 ≤ frame.height ∧ frame.height ≤ 8192) ∧
      frame.pixels.length = frame.width * frame.height * 4 := by
  obtain ⟨hhas, rfl⟩ := eq_snapshot_of_copyFrame (copyFrame_of_captureFrame hframe)
  obtain ⟨hlive, hwidth⟩ := hvalid.hasFrame hhas
  have hdimensions := hvalid.dimensions
  obtain ⟨hw, hh⟩ : (1 ≤ view.captured.width ∧ view.captured.width ≤ 8192) ∧
      1 ≤ view.captured.height ∧ view.captured.height ≤ 8192 := by omega
  exact ⟨hw, hh, hvalid.framebuffer hlive⟩

/-- A screenshot is what becomes of the frame that is captured. -/
theorem screenshotImage_eq (hframe : captureFrame view = .ok frame) {codec : Codec}
    {format : String} {quality : UInt8} {maxWidth : Option ℕ} {asked : Option ScreenshotRegion}
    {result : Except String EncodedImage}
    (hencode : encode bits codec frame.pixels frame.width frame.height format quality maxWidth
      (asked.map ScreenshotRegion.native) = some result) :
    screenshotImage bits codec format quality maxWidth asked view =
      some (result.map (·, frame)) := by
  rw [screenshotImage, hframe]
  show (encode bits codec frame.pixels frame.width frame.height format quality maxWidth
    (asked.map ScreenshotRegion.native) >>= fun encoded ↦ pure (encoded, frame)) = _
  rw [hencode]
  cases result <;> rfl

/-- A region that begins behind the desktop is refused; every other is clipped. -/
theorem clampRegion_native (region : ScreenshotRegion) {width height : ℕ} (hwidth : 0 < width)
    (hheight : 0 < height) :
    clampRegion (some region.native) width height =
      if width ≤ region.x.toInt ∨ height ≤ region.y.toInt then
        .error "screenshot region is outside the desktop"
      else .ok {
        x := (max region.x.toInt 0).toNat
        y := (max region.y.toInt 0).toNat
        width := min (max region.width.toNat 1) (width - (max region.x.toInt 0).toNat)
        height := min (max region.height.toNat 1) (height - (max region.y.toInt 0).toNat) } := by
  have hout : (region.native.width = 0 ∨ region.native.height = 0 ∨ region.native.x ≥ width ∨
      region.native.y ≥ height) ↔ (width ≤ region.x.toInt ∨ height ≤ region.y.toInt) := by
    simp only [ScreenshotRegion.native]
    omega
  simp only [clampRegion, hout]
  rfl

/-- An image that is not scaled has the size of what it is cut from. -/
theorem RgbaImage.CutFrom.size_eq {image : RgbaImage} {rgba : List UInt8} {width : ℕ}
    {crop : NativeRegion} {maxWidth : Option ℕ} (h : image.CutFrom rgba width crop maxWidth)
    (hmax : ∀ limit ∈ maxWidth, limit = 0) :
    image.width = crop.width ∧ image.height = crop.height := by
  have hwidth : image.width = crop.width := by
    by_contra hne
    have hlimit := hmax _ (h.width_scaled (lt_of_le_of_ne h.width_le hne))
    have := h.width_pos
    omega
  exact ⟨hwidth, h.height_unscaled hwidth⟩

/-- An image that is not scaled shows the area it is cut from. -/
theorem RgbaImage.CutFrom.shows {image : RgbaImage} {crop : NativeRegion} {maxWidth : Option ℕ}
    (h : image.CutFrom frame.pixels frame.width crop maxWidth)
    (hmax : ∀ limit ∈ maxWidth, limit = 0)
    {area : Area} (hleft : area.left = crop.x) (htop : area.top = crop.y)
    (hright : area.right = crop.x + crop.width) (hbottom : area.bottom = crop.y + crop.height) :
    image.Shows frame area := by
  obtain ⟨hwidth, hheight⟩ := h.size_eq hmax
  refine ⟨by omega, by omega, h.length, fun i hi j hj k hk ↦ ?_⟩
  rw [h.pixel i hi j hj k hk, hleft, htop, hwidth, hheight, Int.toNat_natCast, Int.toNat_natCast,
    Nat.mul_div_cancel i (by omega), Nat.mul_div_cancel j (by omega)]

/-- An encoder that never fails. -/
def lenientCodec : Codec where
  jpeg _ _ _ _ := .ok []
  png _ _ _ := .ok []

/-- What an image that is encoded tells of its size. -/
theorem encodeImage_lenientCodec (image : RgbaImage) :
    encodeImage lenientCodec "png" 0 image =
      .ok { bytes := [], mimeType := "image/png", width := image.width, height := image.height } :=
  rfl

theorem RgbaImage.EncodedAs.lenientCodec {image : RgbaImage} {result : Except String EncodedImage}
    (h : image.EncodedAs lenientCodec "png" 0 result) :
    result =
      .ok { bytes := [], mimeType := "image/png", width := image.width, height := image.height } :=
  h.png (by decide)

section Shoot

variable {shoot : Codec → String → UInt8 → ExceptT String Option (EncodedImage × PreviewFrame)}
  {area : Area}

/-- A screenshot that is always refused takes the empty areas. -/
theorem takesArea_of_refused {e : String}
    (hshoot : ∀ codec format quality, shoot codec format quality = some (.error e)) :
    TakesArea shoot frame area ↔ area.Empty := by
  by_cases hempty : area.Empty
  · rw [TakesArea, if_pos hempty]
    exact iff_of_true (fun codec format quality ↦ ⟨e, hshoot codec format quality⟩) hempty
  · rw [TakesArea, if_neg hempty]
    refine iff_of_false ?_ hempty
    rintro ⟨image, -, htaken⟩
    obtain ⟨result, hresult, hencoded⟩ := htaken lenientCodec "png" 0
    have := (hshoot lenientCodec "png" 0).symm.trans hresult
    rw [hencoded.lenientCodec] at this
    cases this

/-- A screenshot that is an image of one size takes no area of another. -/
theorem not_empty_of_takesArea {image : RgbaImage}
    (hshoot : ∀ codec format quality,
      shoot codec format quality = some ((encodeImage codec format quality image).map (·, frame)))
    (h : TakesArea shoot frame area) :
    ¬area.Empty ∧ (image.width : ℤ) = area.right - area.left ∧
      (image.height : ℤ) = area.bottom - area.top := by
  have hpng := hshoot lenientCodec "png" 0
  rw [encodeImage_lenientCodec] at hpng
  by_cases hempty : area.Empty
  · rw [TakesArea, if_pos hempty] at h
    obtain ⟨e, herror⟩ := h lenientCodec "png" 0
    cases hpng.symm.trans herror
  · rw [TakesArea, if_neg hempty] at h
    obtain ⟨other, hshows, htaken⟩ := h
    obtain ⟨result, hresult, hencoded⟩ := htaken lenientCodec "png" 0
    have hsame := hpng.symm.trans hresult
    rw [hencoded.lenientCodec] at hsame
    injection hsame with hsame
    injection hsame with hsame
    injection hsame with hsame
    injection hsame with _ _ hwidth hheight
    exact ⟨hempty, hwidth ▸ hshows.width, hheight ▸ hshows.height⟩

end Shoot

/-- **A screenshot of a region is that of its overlap with the desktop exactly if the region fits**:
for every region, on a session that has a frame, with no maximal width. -/
theorem takesOverlap_iff {bits : ℕ} (hbits : 32 ≤ bits) {view : ScreenshotView}
    {frame : PreviewFrame} (hvalid : view.captured.Valid) (hframe : captureFrame view = .ok frame)
    {maxWidth : Option ℕ} (hmax : ∀ limit ∈ maxWidth, limit = 0) (region : ScreenshotRegion) :
    TakesArea (fun codec format quality ↦
        screenshotImage bits codec format quality maxWidth (some region) view) frame
        (region.overlap frame.width frame.height) ↔
      region.Fits frame.width frame.height := by
  obtain ⟨hw, hh, hlen⟩ := desktop_of_captureFrame hvalid hframe
  have hclamp := clampRegion_native region hw.1 hh.1
  by_cases hbehind : frame.width ≤ region.x.toInt ∨ frame.height ≤ region.y.toInt
  · -- it is refused, and there is no overlap
    rw [if_pos hbehind] at hclamp
    have hrefused (codec : Codec) (format : String) (quality : UInt8) :
        screenshotImage bits codec format quality maxWidth (some region) view =
          some ((Except.error "screenshot region is outside the desktop").map (·, frame)) := by
      refine screenshotImage_eq hframe ?_
      exact encode_of_refused hbits hw hh hlen maxWidth hclamp codec format quality
    rw [takesArea_of_refused hrefused]
    refine iff_of_true ?_ (.inl hbehind)
    simp only [Area.Empty, ScreenshotRegion.overlap]
    omega
  · rw [if_neg hbehind] at hclamp
    obtain ⟨image, hprepare, hcut⟩ := exists_prepare hbits hw hh hlen maxWidth hclamp
    have himage (codec : Codec) (format : String) (quality : UInt8) :
        screenshotImage bits codec format quality maxWidth (some region) view =
          some ((encodeImage codec format quality image).map (·, frame)) :=
      screenshotImage_eq hframe (encode_of_prepare hprepare codec format quality)
    constructor
    · intro htakes
      obtain ⟨hnonempty, hright, hbottom⟩ := not_empty_of_takesArea himage htakes
      obtain ⟨hiw, hih⟩ := hcut.size_eq hmax
      simp only [Area.Empty, ScreenshotRegion.overlap, not_or, not_le] at hnonempty hright hbottom
      simp only at hiw hih
      refine .inr ⟨?_, ?_, ?_, ?_⟩
      · rw [UInt32.lt_iff_toNat_lt]
        show 0 < region.width.toNat
        omega
      · rw [UInt32.lt_iff_toNat_lt]
        show 0 < region.height.toNat
        omega
      · omega
      · omega
    · rintro (hfits | ⟨hwpos, hhpos, hx, hy⟩)
      · exact absurd hfits hbehind
      · rw [UInt32.lt_iff_toNat_lt] at hwpos hhpos
        change 0 < region.width.toNat at hwpos
        change 0 < region.height.toNat at hhpos
        have hnonempty : ¬(region.overlap frame.width frame.height).Empty := by
          simp only [Area.Empty, ScreenshotRegion.overlap]
          omega
        rw [TakesArea, if_neg hnonempty]
        have hiw := hcut.width_le
        have hih := hcut.height_le
        simp only at hiw hih
        refine ⟨image, hcut.shows hmax ?_ ?_ ?_ ?_, fun codec format quality ↦
          ⟨_, himage codec format quality, ?_⟩⟩
        · simp only [ScreenshotRegion.overlap]
          omega
        · simp only [ScreenshotRegion.overlap]
          omega
        · simp only [ScreenshotRegion.overlap]
          omega
        · simp only [ScreenshotRegion.overlap]
          omega
        · exact encodedAs_encodeImage hcut.length (by omega) (by omega) codec format quality

end Condition

/-! ### A desktop of two pixels -/

/-- A session with a desktop of two pixels, a red one and a green one. -/
def redGreen : SessionState where
  connected := true
  width := 2
  height := 1
  framebuffer := [255, 0, 0, 255, 0, 255, 0, 255]
  hasFrame := true

theorem valid_redGreen : redGreen.Valid :=
  ⟨.inr (by decide), fun _ ↦ rfl, fun _ ↦ by decide, nofun⟩

/-- A region that reaches beyond the right edge shows the green pixel. -/
theorem takesOverlap_iff_right :
    TakesArea (fun codec format quality ↦ screenshotImage 64 codec format quality none
        (some ⟨1, 0, 5, 1⟩) ⟨redGreen, [], redGreen, redGreen⟩) redGreen.snapshot
      (ScreenshotRegion.overlap ⟨1, 0, 5, 1⟩ 2 1) :=
  (@takesOverlap_iff 64 (by decide) ⟨redGreen, [], redGreen, redGreen⟩ redGreen.snapshot
    valid_redGreen rfl none nofun ⟨1, 0, 5, 1⟩).2 (.inr (by decide))

/-- **A region that begins one pixel before the desktop shows one pixel too many**: the overlap is
the red pixel, the screenshot has both. -/
theorem screenshot_before_desktop :
    ¬TakesArea (fun codec format quality ↦ screenshotImage 64 codec format quality none
        (some ⟨-1, 0, 2, 1⟩) ⟨redGreen, [], redGreen, redGreen⟩) redGreen.snapshot
      (ScreenshotRegion.overlap ⟨-1, 0, 2, 1⟩ 2 1) := by
  intro htakes
  have hprepare : prepare 64 redGreen.framebuffer 2 1 none
      (some (ScreenshotRegion.native ⟨-1, 0, 2, 1⟩)) =
        some (.ok { width := 2, height := 1, pixels := redGreen.framebuffer }) := by rfl
  have himage (codec : Codec) (format : String) (quality : UInt8) :
      screenshotImage 64 codec format quality none (some ⟨-1, 0, 2, 1⟩)
          ⟨redGreen, [], redGreen, redGreen⟩ =
        some ((encodeImage codec format quality
          { width := 2, height := 1, pixels := redGreen.framebuffer }).map
            (·, redGreen.snapshot)) :=
    screenshotImage_eq rfl (encode_of_prepare hprepare codec format quality)
  obtain ⟨-, hwidth, -⟩ := not_empty_of_takesArea himage htakes
  exact absurd hwidth (by decide)

end RdpMcp
