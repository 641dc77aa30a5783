import RdpMcp.Session.Invariant

/-!
# The version counter

The version of a frame counts the rectangles painted into it, modulo `2 ^ 64`. What a reader of
frames relies on is that the count pins the pixels: between two states of one session, either some
rectangle was painted or the frame, if there still is one, is untouched (`exists_paints`). A resize
does not count, but it takes the frame away, and only a painted rectangle brings one back.

The counter is not monotone over runs of arbitrary length: painting `2 ^ 64` rectangles leads back
to the same version (`frameVersion_wraps`).
-/

namespace RdpMcp

/-! ### Counting paints -/

/-- An event that can paint a rectangle. -/
def SessionEvent.isBitmap : SessionEvent → Bool
  | .output kind _ _ => kind == msgBitmapUpdate
  | .stop _ => false

/-- The number of events of a run that can paint a rectangle. -/
def bitmapCount (events : List SessionEvent) : ℕ :=
  events.countP SessionEvent.isBitmap

variable {fromSlice : List UInt8 → Option JsonValue} {s t : SessionState}

/-- One transition paints at most once, and only on a bitmap event. Without paint, a frame there is
after it was there before it. -/
theorem SessionStep.exists_paint {event : SessionEvent} (h : SessionStep fromSlice s event t) :
    ∃ n ≤ event.isBitmap.toNat, t.frameVersion = s.frameVersion + UInt64.ofNat n ∧
      (n = 0 → t.hasFrame = true → s.hasFrame = true ∧ t.framebuffer = s.framebuffer) := by
  cases h with
  | painted => exact ⟨1, le_refl 1, rfl, fun h ↦ absurd h (by omega)⟩
  | stop | disconnected | resized =>
    exact ⟨0, Nat.zero_le _, (UInt64.add_zero _).symm, fun _ hframe ↦ nomatch hframe⟩
  | late | ready | rejected | failed | ignored =>
    exact ⟨0, Nat.zero_le _, (UInt64.add_zero _).symm, fun _ hframe ↦ ⟨hframe, rfl⟩⟩

/-- **Between two states of a session the version counts the paints, and without paint the frame
stands.** -/
theorem exists_paints {events : List SessionEvent} (hs : s.Valid)
    (hrun : (sessionSystem 64 fromSlice).run s events = some t) :
    ∃ n ≤ bitmapCount events, t.frameVersion = s.frameVersion + UInt64.ofNat n ∧
      (n = 0 → t.hasFrame = true → s.hasFrame = true ∧ t.framebuffer = s.framebuffer) := by
  induction events generalizing s with
  | nil =>
    rw [StepSystem.run_nil, Option.some.injEq] at hrun
    subst hrun
    exact ⟨0, Nat.zero_le _, (UInt64.add_zero _).symm, fun _ hframe ↦ ⟨hframe, rfl⟩⟩
  | cons event events ih =>
    obtain ⟨u, hu, hrest⟩ := StepSystem.run_cons_eq_some_iff _ |>.1 hrun
    obtain ⟨m, hm, hmv, hmkeep⟩ := (sessionStep_of_step hs hu).exists_paint
    obtain ⟨n, hn, hnv, hnkeep⟩ := ih (step_valid hs hu) hrest
    refine ⟨m + n, ?_, ?_, fun hzero hframe ↦ ?_⟩
    · rw [bitmapCount, List.countP_cons]
      rw [bitmapCount] at hn
      cases hb : event.isBitmap <;> simp only [hb, Bool.toNat_false, Bool.toNat_true] at hm ⊢ <;>
        simp <;> omega
    · rw [hnv, hmv, UInt64.ofNat_add, UInt64.add_assoc]
    · obtain ⟨huframe, hufb⟩ := hnkeep (by omega) hframe
      obtain ⟨hsframe, hsfb⟩ := hmkeep (by omega) huframe
      exact ⟨hsframe, hufb.trans hsfb⟩

/-- Fewer than `2 ^ 64` bitmap events apart, equal versions mean equal pixels. -/
theorem framebuffer_eq_of_frameVersion_eq {events : List SessionEvent} (hs : s.Valid)
    (hrun : (sessionSystem 64 fromSlice).run s events = some t)
    (hcount : bitmapCount events < 2 ^ 64) (hframe : t.hasFrame = true)
    (hversion : t.frameVersion = s.frameVersion) : t.framebuffer = s.framebuffer := by
  obtain ⟨n, hn, hnv, hkeep⟩ := exists_paints hs hrun
  have hzero : UInt64.ofNat n = 0 := by
    rw [hversion] at hnv
    exact UInt64.add_right_inj s.frameVersion |>.1 (hnv.symm.trans (UInt64.add_zero _).symm)
  have hn0 : n = 0 := by
    have := congrArg UInt64.toNat hzero
    rwa [UInt64.toNat_ofNat_of_lt' (show n < 2 ^ 64 by omega)] at this
  exact (hkeep hn0 hframe).2

/-! ### The representation invariant over runs -/

/-- **Every run of a session keeps its representation valid and never panics.** From every state it
reaches, every further event can be taken; it keeps the version or adds one to it, so below the top
of the 64-bit range the version never decreases. -/
theorem session_representation (fromSlice : List UInt8 → Option JsonValue)
    (events : List SessionEvent) :
    ∃ s, (sessionSystem 64 fromSlice).run {} events = some s ∧ s.Valid ∧
      ∀ event, ∃ t, (sessionSystem 64 fromSlice).step s event = some t ∧
        (t.frameVersion = s.frameVersion ∨ t.frameVersion = s.frameVersion + 1) ∧
        (s.frameVersion.toNat < 2 ^ 64 - 1 → s.frameVersion ≤ t.frameVersion) := by
  obtain ⟨s, hrun, hs⟩ := exists_run_valid fromSlice SessionState.valid_default events
  refine ⟨s, hrun, hs, fun event ↦ ?_⟩
  obtain ⟨t, ht, hstep⟩ := exists_sessionStep fromSlice hs event
  refine ⟨t, ht, hstep.frameVersion, fun hlt ↦ ?_⟩
  rw [UInt64.le_iff_toNat_le]
  rcases hstep.frameVersion with h | h
  · rw [h]
  · rw [h, UInt64.toNat_add, UInt64.toNat_one, Nat.mod_eq_of_lt (by omega)]
    omega

/-! ### Wrapping around -/

section Wrap

/-- The size payload of a one-pixel desktop. -/
def onePixelSize : List UInt8 :=
  utf8 "\x7b\"width\":1,\"height\":1\x7d"

/-- A parser that knows this payload. -/
def onePixelParser (payload : List UInt8) : Option JsonValue :=
  if payload = onePixelSize then
    some (.object [("width", .number (.posInt 1)), ("height", .number (.posInt 1))])
  else none

/-- A one-pixel desktop painted in one color. -/
def onePixelDesktop (color : List UInt8) (version : UInt64) : SessionState where
  connected := true
  width := 1
  height := 1
  framebuffer := color
  hasFrame := true
  frameVersion := version

/-- The event that paints it. -/
def paintPixel (color : List UInt8) : SessionEvent :=
  .output msgBitmapUpdate [0, 0, 0, 0, 1, 0, 1, 0] color

/-- From nothing to a connected one-pixel desktop painted once. -/
def openOnePixel : List SessionEvent :=
  [.output msgConnected onePixelSize [], .output msgReady [] [], paintPixel [255, 0, 0, 255]]

theorem run_openOnePixel :
    (sessionSystem 64 onePixelParser).run {} openOnePixel =
      some (onePixelDesktop [255, 0, 0, 255] 1) :=
  rfl

theorem step_paintPixel (r g b a r' g' b' a' : UInt8) (v : UInt64) :
    (sessionSystem 64 onePixelParser).step (onePixelDesktop [r, g, b, a] v)
      (paintPixel [r', g', b', a']) = some (onePixelDesktop [r', g', b', a'] (v + 1)) :=
  rfl

/-- Painting the pixel `n` times raises the version by `n`, modulo `2 ^ 64`. -/
theorem run_replicate_paintPixel (r g b a : UInt8) (v : UInt64) (n : ℕ) :
    (sessionSystem 64 onePixelParser).run (onePixelDesktop [r, g, b, a] v)
      (List.replicate n (paintPixel [r, g, b, a])) =
      some (onePixelDesktop [r, g, b, a] (v + UInt64.ofNat n)) := by
  induction n generalizing v with
  | zero =>
    rw [List.replicate_zero, StepSystem.run_nil]
    exact congrArg (fun w ↦ some (onePixelDesktop _ w)) (UInt64.add_zero v).symm
  | succ n ih =>
    rw [List.replicate_succ, StepSystem.run_cons, step_paintPixel, Option.bind_some, ih,
      UInt64.add_assoc, UInt64.add_comm 1, UInt64.ofNat_add]
    rfl

/-- **The version does decrease**, once it has gone through its whole range: the last of `2 ^ 64`
paints takes it from `2 ^ 64 - 1` to `0`. -/
theorem frameVersion_wraps :
    ∃ s t, (sessionSystem 64 onePixelParser).run {}
        (openOnePixel ++ List.replicate (2 ^ 64 - 2) (paintPixel [255, 0, 0, 255])) = some s ∧
      (sessionSystem 64 onePixelParser).step s (paintPixel [255, 0, 0, 255]) = some t ∧
      ¬s.frameVersion ≤ t.frameVersion := by
  refine ⟨_, _, ?_, step_paintPixel 255 0 0 255 255 0 0 255 (1 + UInt64.ofNat (2 ^ 64 - 2)), ?_⟩
  · exact StepSystem.run_append_eq_some_iff _ |>.2
      ⟨_, run_openOnePixel, run_replicate_paintPixel 255 0 0 255 1 (2 ^ 64 - 2)⟩
  · show ¬(1 + UInt64.ofNat (2 ^ 64 - 2) ≤ 1 + UInt64.ofNat (2 ^ 64 - 2) + 1)
    decide

end Wrap

end RdpMcp
