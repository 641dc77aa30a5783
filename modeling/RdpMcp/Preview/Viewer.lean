import RdpMcp.Session.Finished

/-!
# The preview stream

A viewer of the MJPEG preview samples the session once per tick. It caches the last part it built
and the key of the frame it was built from, the triple of width, height and version, and encodes
again only when the key changes. The cache is there for speed; what a player receives should be what
a viewer without one would send, the encoding of the frame seen at that very tick.

That is a statement about keys: equal keys must mean equal pixels. Resizing does not raise the
version, so the argument is the one of `framebuffer_eq_of_frameVersion_eq`, that a frame can only
come back with a painted rectangle. It holds as long as the version counter has not gone through its
whole range between two looks (`caching_preview_eq`), and fails when it has
(`caching_preview_stale`).

The encoder is a parameter: a function of the pixels and the dimensions that may fail.
-/

namespace RdpMcp

/-! ### Ticks -/

/-- `multipart`: one part of the MJPEG stream. -/
def multipart (jpeg : List UInt8) : List UInt8 :=
  utf8 s!"--rdp-frame\r\nContent-Type: image/jpeg\r\nContent-Length: {jpeg.length}\r\n\r\n" ++
    jpeg ++ [0x0d, 0x0a]

/-- A part is never empty, so an empty part means that there is none. -/
theorem multipart_ne_nil (jpeg : List UInt8) : multipart jpeg ≠ [] := by
  simp [multipart]

/-- What identifies a frame to the cache. -/
def PreviewFrame.key (f : PreviewFrame) : ℕ × ℕ × UInt64 :=
  (f.width, f.height, f.version)

/-- The cache of a viewer. -/
structure Viewer where
  key : Option (ℕ × ℕ × UInt64) := none
  part : List UInt8 := []
  deriving DecidableEq, Repr

/-- What a tick yields: the stream ends, or a part is sent, or nothing is. -/
inductive TickOutput where
  | ended
  | part (bytes : List UInt8)
  | nothing
  deriving DecidableEq, Repr

section Stream

variable (encode : List UInt8 → ℕ → ℕ → Option (List UInt8))

/-- The blocking half of a tick: look at the session and bring the cache up to date. `none` ends the
stream. -/
def Viewer.refresh (viewer : Viewer) (observed : Except String (Option PreviewFrame)) :
    Option Viewer :=
  match observed with
  | .error _ => none
  | .ok none => some {}
  | .ok (some f) =>
    if viewer.key ≠ some f.key then
      match encode f.pixels f.width f.height with
      | some jpeg => some { key := some f.key, part := multipart jpeg }
      | none => some {}
    else some viewer

/-- The other half: send the cached part, if there is one. -/
def Viewer.output (viewer : Viewer) : TickOutput :=
  if viewer.part.isEmpty then .nothing else .part viewer.part

/-- What a viewer without a cache sends for the frame it sees. -/
def plainOutput (observed : Except String (Option PreviewFrame)) : TickOutput :=
  match observed with
  | .error _ => .ended
  | .ok none => .nothing
  | .ok (some f) =>
    match encode f.pixels f.width f.height with
    | some jpeg => .part (multipart jpeg)
    | none => .nothing

/-- A stretch of a preview: the events since the last tick, and the next tick, which may find the
viewer cancelled or the state lock taken. -/
structure Stretch where
  events : List SessionEvent
  cancelled : Bool := false
  busy : Bool := false

variable (fromSlice : List UInt8 → Option JsonValue)

/-- `stream_preview`, tick by tick, up to and including the tick at which it ends. -/
def cachingStream (viewer : Viewer) (state : SessionState) : List Stretch → List TickOutput
  | [] => []
  | stretch :: rest =>
    match (sessionSystem 64 fromSlice).run state stretch.events with
    | none => []
    | some state =>
      if stretch.cancelled then [.ended]
      else
        match viewer.refresh encode (frame stretch.busy state) with
        | none => [.ended]
        | some viewer => viewer.output :: cachingStream viewer state rest

/-- The same stream without a cache. -/
def plainStream (state : SessionState) : List Stretch → List TickOutput
  | [] => []
  | stretch :: rest =>
    match (sessionSystem 64 fromSlice).run state stretch.events with
    | none => []
    | some state =>
      if stretch.cancelled then [.ended]
      else
        match plainOutput encode (frame stretch.busy state) with
        | .ended => [.ended]
        | output => output :: plainStream state rest

end Stream

/-! ### Observations -/

/-- A successful observation of a state: a preview frame or the pixels a screenshot copies. -/
def Observes (state : SessionState) (f : PreviewFrame) : Prop :=
  (∃ busy, frame busy state = .ok (some f)) ∨
    ∃ view, view.captured = state ∧ captureFrame view = .ok f

theorem eq_snapshot_of_frame {busy : Bool} {state : SessionState} {f : PreviewFrame}
    (h : frame busy state = .ok (some f)) : state.hasFrame = true ∧ f = state.snapshot := by
  rw [frame] at h
  split at h
  · cases h
  · split at h
    · cases h
    · split at h
      case isTrue => cases h
      case isFalse hframe =>
        cases h
        simp only [Bool.or_eq_true, Bool.not_eq_true', not_or, Bool.not_eq_false] at hframe
        exact ⟨hframe.2, rfl⟩

/-- An observation is a copy of a frame that is there. -/
theorem Observes.eq_snapshot {state : SessionState} {f : PreviewFrame} (h : Observes state f) :
    state.hasFrame = true ∧ f = state.snapshot := by
  rcases h with ⟨busy, h⟩ | ⟨view, rfl, h⟩
  · exact eq_snapshot_of_frame h
  · exact eq_snapshot_of_copyFrame (copyFrame_of_captureFrame h)

variable {fromSlice : List UInt8 → Option JsonValue} {s t : SessionState}

/-- **Equal keys mean equal frames**, between two looks at one session with fewer than `2 ^ 64`
bitmap events in between. -/
theorem eq_of_key_eq {between : List SessionEvent} (hs : s.Valid)
    (hrun : (sessionSystem 64 fromSlice).run s between = some t)
    (hcount : bitmapCount between < 2 ^ 64) (hframe : t.hasFrame = true)
    (hkey : t.snapshot.key = s.snapshot.key) : t.snapshot = s.snapshot := by
  simp only [PreviewFrame.key, SessionState.snapshot, Prod.mk.injEq] at hkey
  obtain ⟨hw, hh, hv⟩ := hkey
  have hfb := framebuffer_eq_of_frameVersion_eq hs hrun hcount hframe hv
  simp only [SessionState.snapshot, hw, hh, hv, hfb]

/-! ### The cache -/

section Cache

variable {encode : List UInt8 → ℕ → ℕ → Option (List UInt8)}

/-- The viewer's cache holds nothing, or the encoding of the given frame under its key. -/
inductive Caches (encode : List UInt8 → ℕ → ℕ → Option (List UInt8)) :
    Viewer → Option PreviewFrame → Prop
  | empty : Caches encode {} none
  | built {f : PreviewFrame} {jpeg : List UInt8}
      (hjpeg : encode f.pixels f.width f.height = some jpeg) :
      Caches encode { key := some f.key, part := multipart jpeg } (some f)

theorem Viewer.output_built (key : Option (ℕ × ℕ × UInt64)) (jpeg : List UInt8) :
    Viewer.output { key, part := multipart jpeg } = .part (multipart jpeg) :=
  if_neg (by simpa using multipart_ne_nil jpeg)

/-- **One tick.** If the frame seen now is the cached one whenever it has the cached key, then the
refreshed cache holds what is seen now, and sends what a viewer without a cache would send. -/
theorem exists_refresh {viewer : Viewer} {cached : Option PreviewFrame}
    (hcache : Caches encode viewer cached) (seen : Option PreviewFrame)
    (hkey : ∀ f ∈ cached, ∀ g ∈ seen, g.key = f.key → g = f) :
    ∃ viewer' cached', viewer.refresh encode (.ok seen) = some viewer' ∧
      Caches encode viewer' cached' ∧ (∀ f ∈ cached', seen = some f) ∧
      viewer'.output = plainOutput encode (.ok seen) := by
  cases seen with
  | none => exact ⟨{}, none, rfl, .empty, nofun, rfl⟩
  | some g =>
    by_cases hnew : viewer.key ≠ some g.key
    · simp only [Viewer.refresh, if_pos hnew, plainOutput]
      rcases hjpeg : encode g.pixels g.width g.height with - | jpeg
      · exact ⟨{}, none, rfl, .empty, nofun, rfl⟩
      · exact ⟨_, some g, rfl, .built hjpeg, fun f hf ↦ hf, Viewer.output_built _ jpeg⟩
    · simp only [Viewer.refresh, if_neg hnew]
      -- the key is unchanged, so the cache was built from this very frame
      cases hcache with
      | empty => exact absurd (not_not.1 hnew) nofun
      | @built f jpeg hjpeg =>
        have hgf : g = f := hkey f rfl g rfl (Option.some.inj (not_not.1 hnew)).symm
        subst hgf
        exact ⟨_, some g, rfl, .built hjpeg, fun f hf ↦ hf, by
          rw [Viewer.output_built, plainOutput, hjpeg]⟩

variable (encode) in
theorem plainOutput_ne_ended (seen : Option PreviewFrame) :
    plainOutput encode (.ok seen) ≠ .ended := by
  cases seen with
  | none => nofun
  | some f =>
    simp only [plainOutput]
    rcases encode f.pixels f.width f.height with - | jpeg <;> nofun

/-- The two streams agree from any point of a session on, if the cache holds the frame of that point
and no stretch between two ticks exhausts the version counter. -/
theorem cachingStream_eq_plainStream {viewer : Viewer} {cached : Option PreviewFrame}
    (hcache : Caches encode viewer cached) (hs : s.Valid)
    (hcached : ∀ f ∈ cached, f = s.snapshot) {stretches : List Stretch}
    (hhead : cached.isSome = true → ∀ st ∈ stretches.head?, bitmapCount st.events < 2 ^ 64)
    (htail : ∀ st ∈ stretches.tail, bitmapCount st.events < 2 ^ 64) :
    cachingStream encode fromSlice viewer s stretches =
      plainStream encode fromSlice s stretches := by
  induction stretches generalizing viewer cached s with
  | nil => rfl
  | cons stretch rest ih =>
    obtain ⟨t, hrun, ht⟩ := exists_run_valid fromSlice hs stretch.events
    simp only [cachingStream, plainStream, hrun]
    split
    · rfl
    rcases hframe : frame stretch.busy t with e | seen
    · rfl
    have hseen : ∀ g ∈ seen, t.hasFrame = true ∧ g = t.snapshot := fun g hg ↦
      eq_snapshot_of_frame (hframe.trans (congrArg Except.ok hg))
    obtain ⟨viewer', cached', hrefresh, hcache', hcached', hout⟩ :=
      exists_refresh hcache seen fun f hf g hg hkey ↦ by
        obtain ⟨hframe', rfl⟩ := hseen g hg
        obtain rfl := hcached f hf
        exact eq_of_key_eq hs hrun (hhead (Option.isSome_iff_exists.2 ⟨_, hf⟩) stretch rfl)
          hframe' hkey
    have hrest := ih hcache' ht (fun f hf ↦ (hseen f (hcached' f hf)).2)
      (fun _ st hst ↦ htail st (List.mem_of_mem_head? hst))
      fun st hst ↦ htail st (List.mem_of_mem_tail hst)
    simp only [hrefresh, hrest, hout]
    have hne := plainOutput_ne_ended encode seen
    rcases hplain : plainOutput encode (.ok seen) with - | bytes | -
    · exact absurd hplain hne
    · rfl
    · rfl

end Cache

/-! ### The cache never shows -/

/-- **Caching is invisible.** Two looks at one session that find the same key find the same pixels,
and a viewer with a cache sends, tick by tick, what one without a cache would send, and stops at the
same tick, as long as fewer than `2 ^ 64` bitmap events lie between the looks or ticks. -/
theorem caching_preview_eq (fromSlice : List UInt8 → Option JsonValue) :
    (∀ before between s t f g, (sessionSystem 64 fromSlice).run {} before = some s →
      (sessionSystem 64 fromSlice).run s between = some t → bitmapCount between < 2 ^ 64 →
      Observes s f → Observes t g → g.key = f.key → g.pixels = f.pixels) ∧
    ∀ (encode : List UInt8 → ℕ → ℕ → Option (List UInt8)) (stretches : List Stretch),
      (∀ st ∈ stretches.tail, bitmapCount st.events < 2 ^ 64) →
      cachingStream encode fromSlice {} {} stretches =
        plainStream encode fromSlice {} stretches := by
  constructor
  · intro before between s t f g hbefore hbetween hcount hf hg hkey
    obtain ⟨-, rfl⟩ := hf.eq_snapshot
    obtain ⟨hframe, rfl⟩ := hg.eq_snapshot
    have hs := run_valid SessionState.valid_default hbefore
    rw [eq_of_key_eq hs hbetween hcount hframe hkey]
  · intro encode stretches hcounts
    exact cachingStream_eq_plainStream .empty SessionState.valid_default nofun nofun hcounts

/-- An encoder that shows the pixels themselves. -/
def rawEncoder (pixels : List UInt8) (_ _ : ℕ) : Option (List UInt8) :=
  some pixels

/-- A one-pixel desktop, an event that paints nothing, and then a blue pixel. -/
theorem caching_preview_eq_onePixel :
    (∀ g, Observes (onePixelDesktop [255, 0, 0, 255] 1) g → g.key = (1, 1, 1) →
      g.pixels = [255, 0, 0, 255]) ∧
    cachingStream rawEncoder onePixelParser {} {}
        [{ events := openOnePixel }, { events := [paintPixel [0, 0, 255, 255]] }] =
      plainStream rawEncoder onePixelParser {}
        [{ events := openOnePixel }, { events := [paintPixel [0, 0, 255, 255]] }] :=
  ⟨fun g hg hkey ↦ (caching_preview_eq onePixelParser).1 openOnePixel [.output msgReady [] []] _ _
    (onePixelDesktop [255, 0, 0, 255] 1).snapshot g run_openOnePixel rfl (by decide)
    (Or.inl ⟨false, rfl⟩) hg hkey,
   (caching_preview_eq onePixelParser).2 rawEncoder _ (by decide)⟩

/-! ### A stale frame -/

section Stale

/-- From one red paint to a blue one, going once around the version counter. -/
def aroundToBlue : List SessionEvent :=
  List.replicate (2 ^ 64 - 1) (paintPixel [255, 0, 0, 255]) ++ [paintPixel [0, 0, 255, 255]]

theorem run_aroundToBlue :
    (sessionSystem 64 onePixelParser).run (onePixelDesktop [255, 0, 0, 255] 1) aroundToBlue =
      some (onePixelDesktop [0, 0, 255, 255] 1) :=
  StepSystem.run_append_eq_some_iff _ |>.2
    ⟨_, run_replicate_paintPixel 255 0 0 255 1 (2 ^ 64 - 1),
      congrArg (fun v ↦ some (onePixelDesktop [0, 0, 255, 255] v))
        (show 1 + UInt64.ofNat (2 ^ 64 - 1) + 1 = 1 by decide)⟩

/-- Two ticks, the second one at the version of the first: the cache is sent again. -/
theorem cachingStream_red_red {around : List SessionEvent}
    (h : (sessionSystem 64 onePixelParser).run (onePixelDesktop [255, 0, 0, 255] 1) around =
      some (onePixelDesktop [0, 0, 255, 255] 1)) :
    cachingStream rawEncoder onePixelParser {} {}
        [{ events := openOnePixel }, { events := around }] =
      [.part (multipart [255, 0, 0, 255]), .part (multipart [255, 0, 0, 255])] := by
  simp only [cachingStream, run_openOnePixel, h]
  rfl

/-- The same two ticks without a cache. -/
theorem plainStream_red_blue {around : List SessionEvent}
    (h : (sessionSystem 64 onePixelParser).run (onePixelDesktop [255, 0, 0, 255] 1) around =
      some (onePixelDesktop [0, 0, 255, 255] 1)) :
    plainStream rawEncoder onePixelParser {} [{ events := openOnePixel }, { events := around }] =
      [.part (multipart [255, 0, 0, 255]), .part (multipart [0, 0, 255, 255])] := by
  simp only [plainStream, run_openOnePixel, h]
  rfl

/-- **The cache does go stale**, once the version has gone through its whole range between two
ticks: the desktop is blue, the viewer still sends red. -/
theorem caching_preview_stale :
    (∃ s t f g, (sessionSystem 64 onePixelParser).run {} openOnePixel = some s ∧
      (sessionSystem 64 onePixelParser).run s aroundToBlue = some t ∧
      Observes s f ∧ Observes t g ∧ g.key = f.key ∧ g.pixels ≠ f.pixels) ∧
    cachingStream rawEncoder onePixelParser {} {}
        [{ events := openOnePixel }, { events := aroundToBlue }] ≠
      plainStream rawEncoder onePixelParser {}
        [{ events := openOnePixel }, { events := aroundToBlue }] := by
  refine ⟨⟨_, _, (onePixelDesktop [255, 0, 0, 255] 1).snapshot,
    (onePixelDesktop [0, 0, 255, 255] 1).snapshot, run_openOnePixel, run_aroundToBlue,
    Or.inl ⟨false, rfl⟩, Or.inl ⟨false, rfl⟩, rfl, by decide⟩, ?_⟩
  rw [cachingStream_red_red run_aroundToBlue, plainStream_red_blue run_aroundToBlue]
  simp [multipart]

end Stale

end RdpMcp
