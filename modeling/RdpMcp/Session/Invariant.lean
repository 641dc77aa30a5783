import RdpMcp.Session.Bitmap

/-!
# The session invariant

`SessionState.Valid` ties the flags, the dimensions and the framebuffer of a session together, and
`SessionStep` lists the transitions of a valid session: one constructor per thing an event can do,
with its guard. The two are proved together. A valid session has a transition for every event
(`exists_sessionStep`), so it never panics on 64 bits, and every transition keeps it valid
(`SessionStep.valid`); later results about runs are case analyses over `SessionStep` and never look
at the event handler again.

The version counter is a 64-bit one. Each painted rectangle adds one to it, and nothing else changes
it, so it never decreases before it has come round.
-/

open Raster LittleEndian

namespace RdpMcp

/-! ### Validity -/

/-- The representation invariant of a session. -/
structure SessionState.Valid (s : SessionState) : Prop where
  dimensions : (s.width = 0 ∧ s.height = 0) ∨
    ((1 ≤ s.width ∧ s.width ≤ 8192) ∧ (1 ≤ s.height ∧ s.height ≤ 8192))
  framebuffer : s.disconnected = false → s.framebuffer.length = s.width * s.height * 4
  hasFrame : s.hasFrame = true → s.disconnected = false ∧ 0 < s.width
  disconnected : s.disconnected = true →
    s.connected = false ∧ s.hasFrame = false ∧ s.framebuffer = []

namespace SessionState

theorem valid_default : Valid {} where
  dimensions := Or.inl ⟨rfl, rfl⟩
  framebuffer _ := rfl
  hasFrame h := nomatch h
  disconnected h := nomatch h

theorem Valid.onDesktop {s : SessionState} (hs : s.Valid) (hlive : s.disconnected = false)
    (hdim : ¬(s.width = 0 ∨ s.height = 0)) : s.OnDesktop := by
  rcases hs.dimensions with ⟨hw, -⟩ | ⟨⟨hw, hw'⟩, hh, hh'⟩
  · exact absurd (Or.inl hw) hdim
  · exact ⟨hw, hw', hh, hh', hs.framebuffer hlive⟩

/-- A bitmap message whose payload does not have the size its header announces, on a session that
has a desktop to check it against. -/
def Missized (s : SessionState) (header pixels : List UInt8) : Prop :=
  ∃ rect, readHeader header = some rect ∧ ¬(s.width = 0 ∨ s.height = 0) ∧
    pixels.length ≠ payloadSize 64 rect

theorem stop_valid {s : SessionState} (hs : s.Valid) (error : Option String) :
    (s.stop error).Valid where
  dimensions := hs.dimensions
  framebuffer h := nomatch h
  hasFrame h := nomatch h
  disconnected _ := ⟨rfl, rfl, rfl⟩

end SessionState

/-! ### The transitions -/

section Transitions

variable (fromSlice : List UInt8 → Option JsonValue)

/-- The transitions of a session. -/
inductive SessionStep (s : SessionState) : SessionEvent → SessionState → Prop
  /-- The session is closed from this side. -/
  | stop (error : Option String) : SessionStep s (.stop error) (s.stop error)
  /-- The worker reports the end. -/
  | disconnected (partA partB : List UInt8) :
      SessionStep s (.output msgDisconnected partA partB)
        (s.stop (disconnectCause fromSlice partA))
  /-- Anything else after the end. -/
  | late {kind : UInt32} {partA partB : List UInt8} (hdead : s.disconnected = true)
      (hkind : kind ≠ msgDisconnected) : SessionStep s (.output kind partA partB) s
  /-- The connect command succeeded. -/
  | ready (partA partB : List UInt8) (hlive : s.disconnected = false) :
      SessionStep s (.output msgReady partA partB) { s with connected := true }
  /-- A plausible new size. -/
  | resized {kind : UInt32} {partA partB : List UInt8} {width height : ℕ}
      (hlive : s.disconnected = false) (hkind : kind = msgConnected ∨ kind = msgResized)
      (hrange : (1 ≤ width ∧ width ≤ 8192) ∧ (1 ≤ height ∧ height ≤ 8192)) :
      SessionStep s (.output kind partA partB)
        { s with
          width
          height
          framebuffer := List.replicate (width * height * 4) 0
          hasFrame := false }
  /-- A payload of the wrong size. -/
  | rejected (header pixels : List UInt8) (hlive : s.disconnected = false)
      (hsize : s.Missized header pixels) :
      SessionStep s (.output msgBitmapUpdate header pixels)
        { s with error := some invalidBitmap }
  /-- A rectangle is painted. -/
  | painted (header pixels framebuffer : List UInt8) (hlive : s.disconnected = false)
      (hdesk : s.OnDesktop) (hsize : ¬s.Missized header pixels)
      (hlength : framebuffer.length = s.framebuffer.length) :
      SessionStep s (.output msgBitmapUpdate header pixels)
        { s with framebuffer, frameVersion := s.frameVersion + 1, hasFrame := true }
  /-- The worker reports an error. -/
  | failed (partA partB : List UInt8) (hlive : s.disconnected = false) :
      SessionStep s (.output msgError partA partB)
        { s with error := some (errorMessage fromSlice partA) }
  /-- Nothing: an implausible size, a rectangle off the desktop, an unknown kind. -/
  | ignored {kind : UInt32} {partA partB : List UInt8} (hlive : s.disconnected = false)
      (hkind : kind ≠ msgDisconnected ∧ kind ≠ msgReady ∧ kind ≠ msgError)
      (hsize : kind = msgBitmapUpdate → ¬s.Missized partA partB) :
      SessionStep s (.output kind partA partB) s

variable {fromSlice} {s t : SessionState} {event : SessionEvent}

/-- **Every transition keeps the invariant.** -/
theorem SessionStep.valid (h : SessionStep fromSlice s event t) (hs : s.Valid) : t.Valid := by
  cases h with
  | stop => exact SessionState.stop_valid hs _
  | disconnected => exact SessionState.stop_valid hs _
  | late => exact hs
  | ready _ _ hlive =>
    exact ⟨hs.dimensions, hs.framebuffer, hs.hasFrame, fun hdead ↦ absurd hdead (by simp [hlive])⟩
  | resized hlive _ hrange =>
    exact ⟨Or.inr hrange, fun _ ↦ List.length_replicate, (fun hframe ↦ nomatch hframe),
      fun hdead ↦ absurd hdead (by simp [hlive])⟩
  | rejected => exact ⟨hs.dimensions, hs.framebuffer, hs.hasFrame, hs.disconnected⟩
  | painted _ _ _ hlive hdesk _ hlength =>
    exact ⟨hs.dimensions, fun _ ↦ hlength.trans (hs.framebuffer hlive),
      fun _ ↦ ⟨hlive, hdesk.width_pos⟩, fun hdead ↦ absurd hdead (by simp [hlive])⟩
  | failed => exact ⟨hs.dimensions, hs.framebuffer, hs.hasFrame, hs.disconnected⟩
  | ignored => exact hs

/-- The version is kept or raised by one. -/
theorem SessionStep.frameVersion (h : SessionStep fromSlice s event t) :
    t.frameVersion = s.frameVersion ∨ t.frameVersion = s.frameVersion + 1 := by
  cases h with
  | painted => exact Or.inr rfl
  | stop | disconnected | late | ready | resized | rejected | failed | ignored => exact Or.inl rfl

/-! ### The handler takes transitions only -/

/-- The bitmap handler on a live valid session. -/
theorem exists_applyBitmap (hs : s.Valid) (hlive : s.disconnected = false)
    (header pixels : List UInt8) :
    ∃ t, applyBitmap 64 s header pixels = some t ∧
      SessionStep fromSlice s (.output msgBitmapUpdate header pixels) t := by
  have hkind : msgBitmapUpdate ≠ msgDisconnected ∧ msgBitmapUpdate ≠ msgReady ∧
      msgBitmapUpdate ≠ msgError := by decide
  unfold applyBitmap
  rcases hheader : readHeader header with - | rect
  · refine ⟨s, rfl, .ignored hlive hkind fun _ ⟨rect, hrect, _⟩ ↦ ?_⟩
    exact absurd (hheader.symm.trans hrect) (by simp)
  by_cases hdim : s.width = 0 ∨ s.height = 0
  · exact ⟨s, if_pos hdim, .ignored hlive hkind fun _ ⟨_, _, hdim', _⟩ ↦ hdim' hdim⟩
  by_cases hlen : pixels.length ≠ payloadSize 64 rect
  · exact ⟨_, by simp only [if_neg hdim, if_pos hlen],
      .rejected header pixels hlive ⟨rect, hheader, hdim, hlen⟩⟩
  have hsize : ¬s.Missized header pixels := by
    rintro ⟨rect', hrect', -, hlen'⟩
    cases hheader.symm.trans hrect'
    exact hlen hlen'
  by_cases hclip : s.copyWidth rect = 0 ∨ s.copyHeight rect = 0
  · exact ⟨s, by simp only [if_neg hdim, if_neg hlen, if_pos hclip],
      .ignored hlive hkind fun _ ↦ hsize⟩
  have hfit := size_lt_of_readHeader hheader
  obtain ⟨fb, hfb, hfblen, -⟩ := SessionState.copyRows_onDesktop (by omega)
    (hs.onDesktop hlive hdim) hfit ((not_not.1 hlen).trans (payloadSize_eq hfit))
    (show 0 < s.copyWidth rect by omega)
  exact ⟨_, by simp only [if_neg hdim, if_neg hlen, if_neg hclip, hfb, Option.map_some],
    .painted header pixels fb hlive (hs.onDesktop hlive hdim) hsize hfblen⟩

/-- A size event on a live valid session. -/
theorem resized_sessionStep (hlive : s.disconnected = false) {kind : UInt32}
    (hkind : kind = msgConnected ∨ kind = msgResized) (partA partB : List UInt8)
    (width height : ℕ) :
    SessionStep fromSlice s (.output kind partA partB) (s.resized 64 width height) := by
  rw [SessionState.resized]
  split
  case isTrue hrange =>
    have hmul : width * height ≤ 8192 * 8192 := Nat.mul_le_mul hrange.1.2 hrange.2.2
    rw [usize_of_lt (show width * height < 2 ^ 64 by omega), usize_of_lt (by omega)]
    exact .resized hlive hkind hrange
  case isFalse =>
    exact .ignored hlive (by rcases hkind with rfl | rfl <;> decide)
      (by rcases hkind with rfl | rfl <;> exact fun h ↦ absurd h (by decide))

variable (fromSlice) in
/-- **A valid session takes every event, without panicking, and by one of the transitions.** -/
theorem exists_sessionStep (hs : s.Valid) (event : SessionEvent) :
    ∃ t, (sessionSystem 64 fromSlice).step s event = some t ∧ SessionStep fromSlice s event t := by
  rcases event with ⟨kind, partA, partB⟩ | error
  swap
  · exact ⟨_, rfl, .stop error⟩
  show ∃ t, handleNativeOutput 64 fromSlice s kind partA partB = some t ∧ _
  rw [handleNativeOutput]
  by_cases hdisc : kind = msgDisconnected
  · subst hdisc
    exact ⟨_, if_pos rfl, .disconnected partA partB⟩
  rw [if_neg hdisc]
  by_cases hdead : s.disconnected = true
  · exact ⟨s, if_pos hdead, .late hdead hdisc⟩
  rw [if_neg hdead]
  have hlive : s.disconnected = false := by simpa using hdead
  by_cases hready : kind = msgReady
  · subst hready
    exact ⟨_, if_pos rfl, .ready partA partB hlive⟩
  rw [if_neg hready]
  by_cases hsize : kind = msgConnected ∨ kind = msgResized
  · rw [if_pos hsize]
    rcases fromSlice partA with - | value
    · exact ⟨s, rfl, .ignored hlive (by rcases hsize with rfl | rfl <;> decide)
        (by rcases hsize with rfl | rfl <;> exact fun h ↦ absurd h (by decide))⟩
    · exact ⟨_, rfl, resized_sessionStep hlive hsize partA partB _ _⟩
  rw [if_neg hsize]
  by_cases hbitmap : kind = msgBitmapUpdate
  · subst hbitmap
    rw [if_pos rfl]
    exact exists_applyBitmap hs hlive partA partB
  rw [if_neg hbitmap]
  by_cases herror : kind = msgError
  · subst herror
    exact ⟨_, if_pos rfl, .failed partA partB hlive⟩
  rw [if_neg herror]
  exact ⟨s, rfl, .ignored hlive ⟨hdisc, hready, herror⟩ fun h ↦ absurd h hbitmap⟩

/-- Inversion: a step taken from a valid session is one of the transitions. -/
theorem sessionStep_of_step (hs : s.Valid)
    (h : (sessionSystem 64 fromSlice).step s event = some t) : SessionStep fromSlice s event t := by
  obtain ⟨t', ht', hstep⟩ := exists_sessionStep fromSlice hs event
  cases h.symm.trans ht'
  exact hstep

theorem step_valid (hs : s.Valid) (h : (sessionSystem 64 fromSlice).step s event = some t) :
    t.Valid :=
  (sessionStep_of_step hs h).valid hs

theorem run_valid {events : List SessionEvent} (hs : s.Valid)
    (h : (sessionSystem 64 fromSlice).run s events = some t) : t.Valid :=
  StepSystem.run_invariant (fun _ _ _ ↦ step_valid) hs h

variable (fromSlice) in
/-- Every list of events runs to the end. -/
theorem exists_run_valid (hs : s.Valid) (events : List SessionEvent) :
    ∃ t, (sessionSystem 64 fromSlice).run s events = some t ∧ t.Valid :=
  StepSystem.exists_run (fun s event hs ↦ by
    obtain ⟨t, ht, hstep⟩ := exists_sessionStep fromSlice hs event
    exact ⟨t, ht, hstep.valid hs⟩) hs events

end Transitions

end RdpMcp
