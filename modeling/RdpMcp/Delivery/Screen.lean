import RdpMcp.Delivery.Desktop
import RdpMcp.Delivery.Lines
import RdpMcp.Native.PrintExact
import RdpMcp.Session.Invariant

/-!
# What the session shows

**The framebuffer of the session is the screen of the worker**, at an earlier moment perhaps, but
never in between (`screen_shown`): whatever part of the worker's messages has been read, and however
the bytes arrived, there is a point in the run of the connection module at which exactly the
messages that have wholly arrived had been sent. Unless one of them says DISCONNECTED, the session
is live, has the size that had been announced last, and shows every pixel that had been painted
since then, in its color, unless a paint had begun that changes it; all other pixels are blank.

FreeRDP keeps to what `Regular` says: above all, sizes are supported and paints are not nested. A
bitmap is clipped twice, to the drawing buffer by the sender and to the desktop by the receiver,
whose sizes differ if a resize has failed (`exists_update`, `exists_painted`).
-/

open Raster LittleEndian ByteReader

namespace RdpMcp

/-! ### Messages at the session -/

/-- What the session hears of a message. -/
def Message.event (m : Message) : SessionEvent :=
  if m.kind = msgBitmapUpdate then .output m.kind m.partA m.partB
  else .output m.kind (m.partA ++ m.partB) []

theorem handlerCalls_delivered (messages : List Message) :
    handlerCalls (messages.flatMap Message.delivered) = messages.map Message.event := by
  have hone (m : Message) : handlerCalls m.delivered = [m.event] := by
    rw [Message.delivered, Message.event, controlAfter]
    split_ifs <;> rfl
  induction messages with
  | nil => rfl
  | cons m messages ih =>
    rw [List.flatMap_cons, handlerCalls_append, hone, ih, List.map_cons, List.singleton_append]

/-- **A part of the stream is heard as the messages that have wholly arrived**, and all of it as all
of them. -/
theorem handlerCalls_of_isPrefix {ε : Type*} {events : List (ReadEvent UInt8 ε)}
    (hrel : Reliable events) {messages : List Message} (hm : ∀ m ∈ messages, m.Sendable)
    (hbytes : bytes events <+: wires messages) :
    ∃ k ≤ messages.length, handlerCalls (readEvents events).1 =
        (messages.take k).map Message.event ∧
      wires (messages.take k) <+: bytes events ∧
      (∀ m rest, messages = messages.take k ++ m :: rest →
        (bytes events).length < (wires (messages.take k)).length + m.wire.length) ∧
      (bytes events = wires messages → k = messages.length) := by
  rcases eq_or_ne (bytes events) (wires messages) with hall | hne
  · refine ⟨messages.length, le_rfl, ?_, ?_, fun m rest hsplit ↦ ?_, fun _ ↦ rfl⟩
    · rw [readEvents_wires hrel hm hall, handlerCalls_delivered, List.take_length]
    · rw [List.take_length, hall]
    · rw [List.take_length] at hsplit
      exact absurd (List.append_cancel_left ((List.append_nil _).trans hsplit)) nofun
  · have hcut : (bytes events).length < (wires messages).length :=
      hbytes.length_le.lt_of_ne fun h ↦ hne (hbytes.eq_of_length h)
    obtain ⟨before, m, after, c, rfl, hc, hlength, htake⟩ := exists_cut hcut
    rw [← List.prefix_iff_eq_take.1 hbytes] at htake
    obtain ⟨payload', rest, hrest, hrestbytes, hloop⟩ := readLoop_wires [] hrel
      (fun m' hm' ↦ hm m' (List.mem_append_left _ hm')) htake
    refine ⟨before.length, ?_, ?_, ?_, fun m' rest' hsplit ↦ ?_, fun h ↦ absurd h hne⟩
    · rw [List.length_append]
      omega
    · rw [readEvents, hloop, readLoop_of_piece payload' hrest
        (hm m (List.mem_append_right _ List.mem_cons_self)) hc hrestbytes, List.append_nil,
        handlerCalls_delivered, List.take_left]
    · rw [List.take_left, htake]
      exact List.prefix_append _ _
    · rw [List.take_left] at hsplit ⊢
      obtain ⟨rfl, -⟩ := List.cons.inj (List.append_cancel_left hsplit)
      omega

/-- A run over messages ends the session exactly if one of them says DISCONNECTED. -/
theorem disconnected_run_iff {fromSlice : List UInt8 → Option JsonValue} {messages : List Message}
    {s t : SessionState} (hs : s.Valid)
    (hrun : (sessionSystem 64 fromSlice).run s (messages.map Message.event) = some t) :
    t.disconnected = true ↔
      s.disconnected = true ∨ ∃ m ∈ messages, m.kind = msgDisconnected := by
  induction messages generalizing s with
  | nil =>
    obtain rfl := Option.some.inj hrun
    simp
  | cons m messages ih =>
    rw [List.map_cons, StepSystem.run_cons_eq_some_iff] at hrun
    obtain ⟨u, hu, hrest⟩ := hrun
    obtain ⟨u', hu', hstep⟩ := exists_sessionStep fromSlice hs m.event
    obtain rfl := Option.some.inj (hu.symm.trans hu')
    have hone : u.disconnected = true ↔ s.disconnected = true ∨ m.kind = msgDisconnected := by
      rw [Message.event] at hstep
      split at hstep <;> exact hstep.disconnected_iff
    rw [ih (hstep.valid hs) hrest, hone, or_assoc, List.exists_mem_cons_iff]

/-! ### Sizes -/

/-- What the session relies on the JSON parser for, about sizes. -/
def ReadsSizes (fromSlice : List UInt8 → Option JsonValue) : Prop :=
  ∀ width height : ℕ, (1 ≤ width ∧ width ≤ 8192) → (1 ≤ height ∧ height ≤ 8192) →
    fromSlice (sizeText width height) =
      some (.record [("width", .ofInt width), ("height", .ofInt height)])

theorem dimension_record {width height : ℕ} (hwidth : width ≤ 8192) (hheight : height ≤ 8192) :
    dimension (.record [("width", .ofInt width), ("height", .ofInt height)]) "width" = width ∧
      dimension (.record [("width", .ofInt width), ("height", .ofInt height)]) "height" =
        height := by
  have hsmall {n : ℕ} (hn : n ≤ 8192) :
      ((JsonValue.ofInt n).asU64.getD 0).toNat % 2 ^ 32 = n := by
    rw [JsonValue.ofInt, JsonNumber.ofInt, if_pos (Int.natCast_nonneg n)]
    change (UInt64.ofNat n).toNat % 2 ^ 32 = n
    rw [UInt64.toNat_ofNat_of_lt' (show n < 2 ^ 64 by omega)]
    omega
  rw [dimension, dimension, index_record, index_record]
  exact ⟨hsmall hwidth, hsmall hheight⟩

theorem toInt_toInt32 {n : UInt32} (h : n.toNat ≤ 8192) : n.toInt32.toInt = n.toNat := by
  rw [Int32.toInt, UInt32.toBitVec_toInt32, BitVec.toInt_eq_toNat_of_lt]
  · rfl
  · rw [UInt32.toNat_toBitVec]
    omega

theorem sendable_size {kind : UInt32} (hkind : kind ≠ msgBitmapUpdate) {width height : ℕ}
    (hwidth : width ≤ 8192) (hheight : height ≤ 8192) :
    Message.Sendable ⟨kind, sizeText width height, []⟩ := by
  refine ⟨?_, fun h ↦ absurd h hkind⟩
  have hw := length_integerText_le (n := width) (by omega)
  have hh := length_integerText_le (n := height) (by omega)
  have hfixed : (utf8 "\x7b\"width\":").length + (utf8 ",\"height\":").length +
      (utf8 "\x7d").length = 20 := by
    decide
  simp only [sizeText, List.length_append, List.length_nil, maxPayload]
  omega

/-- A size arrives at the session. -/
theorem handleNativeOutput_size {fromSlice : List UInt8 → Option JsonValue}
    (hsizes : ReadsSizes fromSlice) (s : SessionState) {kind : UInt32}
    (hkind : kind = msgConnected ∨ kind = msgResized) {width height : ℕ}
    (hwidth : 1 ≤ width ∧ width ≤ 8192) (hheight : 1 ≤ height ∧ height ≤ 8192) :
    handleNativeOutput 64 fromSlice s kind (sizeText width height ++ []) [] =
      some (if s.disconnected then s else s.resized 64 width height) := by
  have hne : kind ≠ msgDisconnected ∧ kind ≠ msgReady := by
    rcases hkind with rfl | rfl <;> decide
  obtain ⟨hreadWidth, hreadHeight⟩ := dimension_record hwidth.2 hheight.2
  rw [handleNativeOutput, if_neg hne.1]
  by_cases hdisconnected : s.disconnected = true
  · rw [if_pos hdisconnected, if_pos hdisconnected]
  · rw [if_neg hdisconnected, if_neg hdisconnected, if_neg hne.2, if_pos hkind, List.append_nil,
      hsizes width height hwidth hheight]
    dsimp only
    rw [hreadWidth, hreadHeight]

/-! ### What is shown -/

/-- The pixels of the framebuffer, by row and column. -/
def SessionState.desktop (s : SessionState) : Set (ℕ × ℕ) :=
  {p | p.1 < s.height ∧ p.2 < s.width}

def SessionState.shown (s : SessionState) (p : ℕ × ℕ) : Option (List UInt8) :=
  s.pixel p.1 p.2

/-- **The framebuffer shows the screen**, in the size that was announced last: what has been sent,
in its colors, unless it is being painted to, and nothing else. -/
structure Shows (d : Desktop) (s : SessionState) : Prop where
  valid : s.Valid
  sent : d.sent ⊆ d.gdi.desktop
  size : s.disconnected = false → (s.width, s.height) = d.size
  current : s.disconnected = false →
    Replica.Current Swizzled s.desktop (some [0, 0, 0, 0]) d.gdi.source d.dirty d.sent s.shown

/-! ### A paint -/

/-- A rectangle is painted pixel by pixel; before the first size there is no pixel. -/
theorem SessionState.Valid.exists_painted {s : SessionState} (hs : s.Valid)
    (hlive : s.disconnected = false) {X Y W H : ℕ} (hX : X < 65536) (hY : Y < 65536)
    (hW : W < 65536) (hH : H < 65536) {rgba : List UInt8} (hlen : rgba.length = W * H * 4) :
    ∃ t, applyBitmap 64 s (bitmapHeader X Y W H) rgba = some t ∧
      (t.width = s.width ∧ t.height = s.height) ∧
      ∀ r < s.height, ∀ c < s.width, t.pixel r c =
        if (Y ≤ r ∧ r < Y + H) ∧ X ≤ c ∧ c < X + W then
          slice rgba (((r - Y) * W + (c - X)) * 4) (((r - Y) * W + (c - X)) * 4 + 4)
        else s.pixel r c := by
  by_cases hempty : s.width = 0 ∨ s.height = 0
  · refine ⟨s, ?_, ⟨rfl, rfl⟩, fun r hr c hc ↦ by omega⟩
    rw [applyBitmap, readHeader_bitmapHeader hX hY hW hH]
    exact if_pos hempty
  · obtain ⟨t, ht, -, -, ⟨hwidth, hheight, -⟩, hpixel⟩ :=
      RdpMcp.exists_painted (hs.onDesktop hlive hempty) hX hY hW hH hlen
    exact ⟨t, ht, ⟨hwidth, hheight⟩, hpixel⟩

section Steps

variable {fromSlice : List UInt8 → Option JsonValue} {d : Desktop} {s : SessionState}

theorem Desktop.dirty_subset (d : Desktop) : d.dirty ⊆ d.gdi.dirty :=
  fun _ h ↦ h.2

theorem Gdi.dirty_subset (gdi : Gdi) : gdi.dirty ⊆ gdi.desktop :=
  fun _ h ↦ h.2.1

theorem Desktop.sent_cons (gdi : Gdi) (paints : List Gdi) :
    {p | ∃ g ∈ gdi :: paints, p ∈ g.dirty} = gdi.dirty ∪ {p | ∃ g ∈ paints, p ∈ g.dirty} := by
  ext p
  simp only [Set.mem_ofPred_eq, Set.mem_union, List.mem_cons, exists_eq_or_imp]

/-- A paint begins. -/
theorem Shows.beginPaint (h : Shows d s) (hpainting : d.painting = false) :
    Shows d.beginPaint s where
  valid := h.valid
  sent := h.sent
  size := h.size
  current hlive := by
    refine (h.current hlive).change (fun p hp ↦ ?_) fun _ _ _ ↦ rfl
    exact absurd (hp.1.symm.trans hpainting) (by decide)

/-- FreeRDP draws. -/
theorem Shows.draw (h : Shows d s) {gdi : Gdi} (hregular : Regular d (.draw gdi)) :
    Shows { d with gdi } s where
  valid := h.valid
  sent p hp := by
    obtain ⟨-, ⟨hwidth, hheight⟩, -⟩ := hregular
    have hin := h.sent hp
    rw [Gdi.desktop, Set.mem_ofPred_eq] at hin ⊢
    rwa [hwidth, hheight]
  size := h.size
  current hlive := by
    obtain ⟨hpainting, ⟨hwidth, hheight⟩, hdirty, hsame⟩ := hregular
    refine (h.current hlive).change (fun p hp ↦ ⟨hpainting, hdirty hp.2⟩) fun p hp hclean ↦ ?_
    have hin := h.sent hp
    refine hsame p ?_ fun hmem ↦ hclean ⟨hpainting, hmem⟩
    rw [Gdi.desktop, Set.mem_ofPred_eq] at hin ⊢
    rwa [hwidth, hheight]

/-- A paint ends without a message. -/
theorem Shows.endPaint_none (h : Shows d s) (hnone : ∀ p, p ∉ d.gdi.dirty) :
    Shows { d with painting := false } s where
  valid := h.valid
  sent := h.sent
  size := h.size
  current hlive :=
    (h.current hlive).change (fun p hp ↦ absurd hp.2 (hnone p)) fun _ _ _ ↦ rfl

variable (fromSlice) in
/-- **A paint ends**, and the framebuffer is painted. -/
theorem Shows.endPaint_some (h : Shows d s) (hnull : d.gdi.invalidNull = false) {X Y W H : ℕ}
    {rgba : List UInt8} (hX : X < 65536) (hY : Y < 65536) (hW : W < 65536) (hH : H < 65536)
    (hlen : rgba.length = W * H * 4)
    (hvisible : ∀ r c, d.gdi.Visible r c ↔ (Y ≤ r ∧ r < Y + H) ∧ X ≤ c ∧ c < X + W)
    (hcolors : ∀ r c, d.gdi.Visible r c → Swizzled (d.gdi.pixel r c)
      (slice rgba (((r - Y) * W + (c - X)) * 4) (((r - Y) * W + (c - X)) * 4 + 4)))
    (messages : List Message) :
    ∃ t, handleNativeOutput 64 fromSlice s msgBitmapUpdate (bitmapHeader X Y W H) rgba = some t ∧
      Shows { d with painting := false, paints := d.gdi :: d.paints, messages } t := by
  obtain ⟨t, ht, hstep⟩ := exists_sessionStep fromSlice h.valid
    (.output msgBitmapUpdate (bitmapHeader X Y W H) rgba)
  have ht' : handleNativeOutput 64 fromSlice s msgBitmapUpdate (bitmapHeader X Y W H) rgba =
      some t := ht
  have hsent : { d with painting := false, paints := d.gdi :: d.paints, messages }.sent ⊆
      d.gdi.desktop := by
    rw [Desktop.sent, Desktop.sent_cons]
    exact Set.union_subset d.gdi.dirty_subset h.sent
  by_cases hdead : s.disconnected = true
  · obtain rfl := hstep.eq_of_stopped h.valid hdead
    exact ⟨t, ht', h.valid, hsent, fun hlive ↦ absurd (hdead.symm.trans hlive) (by decide),
      fun hlive ↦ absurd (hdead.symm.trans hlive) (by decide)⟩
  have hlive : s.disconnected = false := Bool.eq_false_of_not_eq_true hdead
  obtain ⟨u, hu, ⟨hwidth, hheight⟩, hpixel⟩ :=
    h.valid.exists_painted hlive hX hY hW hH hlen
  rw [handleNativeOutput_bitmap hlive] at ht'
  obtain rfl := Option.some.inj (ht'.symm.trans hu)
  refine ⟨t, ht, hstep.valid h.valid, hsent, fun _ ↦ ?_, fun _ ↦ ?_⟩
  · rw [hwidth, hheight, h.size hlive]
  have hcurrent : Replica.Current Swizzled s.desktop (some [0, 0, 0, 0]) d.gdi.source d.gdi.dirty
      d.sent s.shown := (h.current hlive).change d.dirty_subset fun _ _ _ ↦ rfl
  have hdirty (p : ℕ × ℕ) : p ∈ d.gdi.dirty ↔ (Y ≤ p.1 ∧ p.1 < Y + H) ∧ X ≤ p.2 ∧ p.2 < X + W := by
    rw [← hvisible]
    exact ⟨And.right, fun hp ↦ ⟨hnull, hp⟩⟩
  have hdesktop : t.desktop = s.desktop := by
    rw [SessionState.desktop, SessionState.desktop, hwidth, hheight]
  rw [Desktop.sent, Desktop.sent_cons, hdesktop]
  refine hcurrent.send (fun p hp hmem ↦ ?_) fun p hp hmem ↦ ?_
  · rw [SessionState.shown, hpixel p.1 hp.1 p.2 hp.2, if_pos ((hdirty p).1 hmem)]
    exact hcolors p.1 p.2 hmem.2
  · rw [SessionState.shown, hpixel p.1 hp.1 p.2 hp.2, if_neg fun hin ↦ hmem ((hdirty p).2 hin)]
    rfl

/-! ### A size -/

theorem SessionState.pixel_resized {s : SessionState} {width height : ℕ}
    (hwidth : 1 ≤ width ∧ width ≤ 8192) (hheight : 1 ≤ height ∧ height ≤ 8192) {p : ℕ × ℕ}
    (hp : p ∈ (s.resized 64 width height).desktop) :
    (s.resized 64 width height).shown p = some [0, 0, 0, 0] := by
  have hmul : width * height ≤ 8192 * 8192 := Nat.mul_le_mul hwidth.2 hheight.2
  have hsize : usize 64 (usize 64 (width * height) * 4) = width * height * 4 := by
    rw [usize_of_lt (show width * height < 2 ^ 64 by omega), usize_of_lt (by omega)]
  rw [SessionState.resized, if_pos ⟨hwidth, hheight⟩, hsize] at hp ⊢
  obtain ⟨hrow, hcol⟩ := hp
  dsimp only at hrow hcol
  have hlast : (p.1 + 1) * width ≤ height * width := Nat.mul_le_mul_right _ hrow
  rw [Nat.add_mul, Nat.one_mul, Nat.mul_comm height] at hlast
  rw [SessionState.shown, SessionState.pixel]
  dsimp only
  rw [show (p.1 * width + p.2) * 4 + 4 =
    (p.1 * width + p.2) * 4 + ([0, 0, 0, 0] : List UInt8).length from rfl]
  refine slice_eq_some ?_ fun k hk ↦ ?_
  · rw [List.length_replicate, List.length_cons, List.length_cons, List.length_cons,
      List.length_singleton]
    omega
  · have hk' : k < 4 := hk
    rw [List.getElem?_replicate, if_pos (by omega)]
    interval_cases k <;> rfl

/-- **A size is announced**, and the framebuffer is blank. -/
theorem Shows.announce (h : Shows d s) (hsizes : ReadsSizes fromSlice) {kind : UInt32}
    (hkind : kind = msgConnected ∨ kind = msgResized) {width height : ℕ}
    (hwidth : 1 ≤ width ∧ width ≤ 8192) (hheight : 1 ≤ height ∧ height ≤ 8192) (gdi : Gdi)
    (messages : List Message) :
    ∃ t, handleNativeOutput 64 fromSlice s kind (sizeText width height ++ []) [] = some t ∧
      Shows { d with gdi, size := (width, height), paints := [], messages } t := by
  have hstep := handleNativeOutput_size hsizes s hkind hwidth hheight
  have hempty : ({ d with gdi, size := (width, height), paints := [], messages } : Desktop).sent =
      ∅ := by
    rw [Desktop.sent]
    simp only [List.not_mem_nil, false_and, exists_false, Set.ofPred_false]
  have hrun : (sessionSystem 64 fromSlice).step s
      (.output kind (sizeText width height ++ []) []) = _ := hstep
  refine ⟨_, hstep, step_valid h.valid hrun, ?_, fun hlive ↦ ?_, fun hlive ↦ ?_⟩
  · rw [hempty]
    exact Set.empty_subset _
  · split_ifs at hlive ⊢ with hdead
    · exact absurd (hdead.symm.trans hlive) (by decide)
    · rw [SessionState.resized, if_pos ⟨hwidth, hheight⟩]
  · rw [hempty]
    refine Replica.current_blank fun p hp ↦ ?_
    split_ifs at hlive hp ⊢ with hdead
    · exact absurd (hdead.symm.trans hlive) (by decide)
    · exact SessionState.pixel_resized hwidth hheight hp

/-! ### Anything else -/

/-- Nothing else touches the framebuffer, unless it ends the session. -/
theorem SessionStep.quiet {t : SessionState} {kind : UInt32} {partA partB : List UInt8}
    (h : SessionStep fromSlice s (.output kind partA partB) t)
    (hkind : kind ≠ msgConnected ∧ kind ≠ msgResized ∧ kind ≠ msgBitmapUpdate) :
    t.disconnected = true ∨ t.disconnected = s.disconnected ∧ t.width = s.width ∧
      t.height = s.height ∧ t.framebuffer = s.framebuffer := by
  obtain ⟨hconnected, hresized, hbitmap⟩ := hkind
  cases h with
  | disconnected => exact .inl rfl
  | late | ready | failed | ignored => exact .inr ⟨rfl, rfl, rfl, rfl⟩
  | resized _ hsize => exact absurd hsize (not_or.2 ⟨hconnected, hresized⟩)
  | rejected | painted => exact absurd rfl hbitmap

variable (fromSlice) in
theorem Shows.send (h : Shows d s) {message : Message}
    (hkind : message.kind ≠ msgConnected ∧ message.kind ≠ msgResized ∧
      message.kind ≠ msgBitmapUpdate) (messages : List Message) :
    ∃ t, (sessionSystem 64 fromSlice).step s message.event = some t ∧
      Shows { d with messages } t := by
  obtain ⟨t, ht, hstep⟩ := exists_sessionStep fromSlice h.valid message.event
  have hvalid := hstep.valid h.valid
  rw [Message.event, if_neg hkind.2.2] at hstep
  rcases hstep.quiet hkind with hdead | ⟨hdisconnected, hwidth, hheight, hframebuffer⟩
  · exact ⟨t, ht, hvalid, h.sent, fun hlive ↦ absurd (hdead.symm.trans hlive) (by decide),
      fun hlive ↦ absurd (hdead.symm.trans hlive) (by decide)⟩
  refine ⟨t, ht, hvalid, h.sent, fun hlive ↦ ?_, fun hlive ↦ ?_⟩
  · rw [hwidth, hheight]
    exact h.size (hdisconnected ▸ hlive)
  have hcurrent := h.current (hdisconnected ▸ hlive)
  have hshown : t.shown = s.shown := by
    funext p
    rw [SessionState.shown, SessionState.shown, SessionState.pixel, SessionState.pixel, hwidth,
      hframebuffer]
  have hdesktop : t.desktop = s.desktop := by
    rw [SessionState.desktop, SessionState.desktop, hwidth, hheight]
  rw [hshown, hdesktop]
  exact hcurrent

/-! ### One step of the module -/

/-- **A step sends one message at most**, which the session takes, and the framebuffer shows the
screen again. -/
theorem Shows.step (h : Shows d s) (hsizes : ReadsSizes fromSlice) {action : DesktopAction}
    {d' : Desktop} (hregular : Regular d action) (hstep : desktopSystem.step d action = some d') :
    ∃ sent t, d'.messages = d.messages ++ sent ∧ sent.length ≤ 1 ∧ (∀ m ∈ sent, m.Sendable) ∧
      (sessionSystem 64 fromSlice).run s (sent.map Message.event) = some t ∧ Shows d' t := by
  have hquiet {d' : Desktop} (hmessages : d'.messages = d.messages) (h' : Shows d' s) :
      ∃ sent t, d'.messages = d.messages ++ sent ∧ sent.length ≤ 1 ∧ (∀ m ∈ sent, m.Sendable) ∧
        (sessionSystem 64 fromSlice).run s (sent.map Message.event) = some t ∧ Shows d' t :=
    ⟨[], s, hmessages.trans (List.append_nil _).symm, Nat.zero_le _, fun _ hm ↦ by simp at hm, rfl,
      h'⟩
  have hone {d' : Desktop} {m : Message} {t : SessionState}
      (hmessages : d'.messages = d.messages ++ [m]) (hm : m.Sendable)
      (ht : (sessionSystem 64 fromSlice).step s m.event = some t) (h' : Shows d' t) :
      ∃ sent t, d'.messages = d.messages ++ sent ∧ sent.length ≤ 1 ∧ (∀ m ∈ sent, m.Sendable) ∧
        (sessionSystem 64 fromSlice).run s (sent.map Message.event) = some t ∧ Shows d' t :=
    ⟨[m], t, hmessages, le_rfl, fun m' hm' ↦ List.mem_singleton.1 hm' ▸ hm,
      ((sessionSystem 64 fromSlice).run_cons_eq_some_iff).2 ⟨t, ht, rfl⟩, h'⟩
  have hsize {kind : UInt32} (hkind : kind = msgConnected ∨ kind = msgResized)
      {width height : UInt32} (hsupported : Supported width height) (gdi : Gdi)
      (hd' : d' = { d.announce width height fun w h ↦ ⟨kind, sizeText w h, []⟩ with gdi }) :
      ∃ sent t, d'.messages = d.messages ++ sent ∧ sent.length ≤ 1 ∧ (∀ m ∈ sent, m.Sendable) ∧
        (sessionSystem 64 fromSlice).run s (sent.map Message.event) = some t ∧ Shows d' t := by
    obtain ⟨hwidth, hheight⟩ := hsupported
    have hne : kind ≠ msgBitmapUpdate := by
      rcases hkind with rfl | rfl <;> decide
    rw [Desktop.announce, toInt_toInt32 hwidth.2, toInt_toInt32 hheight.2] at hd'
    obtain ⟨t, ht, h'⟩ := h.announce hsizes hkind hwidth hheight gdi
      (d.messages ++ [⟨kind, sizeText width.toNat height.toNat, []⟩])
    subst hd'
    refine hone rfl (sendable_size hne hwidth.2 hheight.2) ?_ h'
    rw [Message.event, if_neg hne]
    exact ht
  cases action with
  | postConnect width height gdi =>
    exact hsize (.inl rfl) hregular gdi (Option.some.inj hstep).symm
  | beginPaint =>
    obtain rfl := Option.some.inj hstep
    exact hquiet rfl (h.beginPaint hregular)
  | draw gdi =>
    obtain rfl := Option.some.inj hstep
    exact hquiet rfl (h.draw hregular)
  | endPaint =>
    obtain ⟨update, hupdate, hd'⟩ := Option.map_eq_some_iff.1 hstep
    by_cases hnull : d.gdi.invalidNull = true
    · rw [cbEndPaint, if_pos hnull] at hupdate
      obtain rfl := Option.some.inj hupdate
      subst hd'
      refine hquiet rfl (h.endPaint_none fun p hp ↦ ?_)
      exact absurd (hp.1.symm.trans hnull) (by decide)
    rw [Bool.not_eq_true] at hnull
    obtain ⟨hwell, hrows⟩ := hregular hnull
    rcases exists_update hwell hnull hrows with ⟨hnone, hvisible⟩ |
      ⟨X, Y, W, H, rgba, hsome, -, ⟨hright, hbottom⟩, hlen, hvisible, hcolors⟩
    · obtain rfl := Option.some.inj (hupdate.symm.trans hnone)
      subst hd'
      exact hquiet rfl (h.endPaint_none fun p hp ↦ hvisible p.1 p.2 hp.2)
    · obtain rfl := Option.some.inj (hupdate.symm.trans hsome)
      subst hd'
      have hwidth := hwell.width
      have hheight := hwell.height
      obtain ⟨t, ht, h'⟩ := h.endPaint_some fromSlice hnull (show X < 65536 by omega)
        (show Y < 65536 by omega) (show W < 65536 by omega) (show H < 65536 by omega) hlen hvisible
        hcolors (d.messages ++ [⟨msgBitmapUpdate, bitmapHeader X Y W H, rgba⟩])
      exact hone rfl (outputSendBitmap_eq (show W ≤ 8192 by omega) (show H ≤ 8192 by omega) hlen).1
        ht h'
  | desktopResize width height resized =>
    exact hsize (.inr rfl) hregular _ (Option.some.inj hstep).symm
  | send message =>
    obtain ⟨hm, hkind⟩ := hregular
    obtain rfl := Option.some.inj hstep
    obtain ⟨t, ht, h'⟩ := h.send fromSlice hkind (d.messages ++ [message])
    exact hone rfl hm ht h'

end Steps

/-! ### Runs -/

/-- What holds at every point of a run. -/
structure Mirrored (fromSlice : List UInt8 → Option JsonValue) (d : Desktop) : Prop where
  sendable : ∀ m ∈ d.messages, m.Sendable
  shows : ∃ s, (sessionSystem 64 fromSlice).run {} (d.messages.map Message.event) = some s ∧
    Shows d s

variable {fromSlice : List UInt8 → Option JsonValue}

theorem mirrored_init : Mirrored fromSlice {} where
  sendable m hm := by simp at hm
  shows := by
    refine ⟨{}, rfl, SessionState.valid_default, fun p ⟨_, hmem, _⟩ ↦ by simp at hmem, fun _ ↦ rfl,
      fun _ ↦ ?_⟩
    have hnone (p : ℕ × ℕ) (hp : p ∈ ({} : SessionState).desktop) : False := Nat.not_lt_zero _ hp.1
    exact ⟨fun p hp ↦ (hnone p hp).elim, fun p hp ↦ (hnone p hp).elim⟩

theorem Mirrored.step (hsizes : ReadsSizes fromSlice) {d d' : Desktop} {action : DesktopAction}
    (h : Mirrored fromSlice d) (hregular : Regular d action)
    (hstep : desktopSystem.step d action = some d') : Mirrored fromSlice d' := by
  obtain ⟨s, hrun, hs⟩ := h.shows
  obtain ⟨sent, t, hmessages, -, hsent, ht, h'⟩ := hs.step hsizes hregular hstep
  refine ⟨fun m hm ↦ ?_, t, ?_, h'⟩
  · rw [hmessages, List.mem_append] at hm
    exact hm.elim (h.sendable m) (hsent m)
  · rw [hmessages, List.map_append]
    exact ((sessionSystem 64 fromSlice).run_append_eq_some_iff).2 ⟨s, hrun, ht⟩

theorem Mirrored.run (hsizes : ReadsSizes fromSlice) {d d' : Desktop} {actions : List DesktopAction}
    (h : Mirrored fromSlice d) (hregular : desktopSystem.StepsMeet Regular d actions)
    (hrun : desktopSystem.run d actions = some d') : Mirrored fromSlice d' :=
  StepSystem.run_invariant_of_stepsMeet (fun _ _ _ h hregular ↦ h.step hsizes hregular) h hregular
    hrun

/-- Messages are sent one at a time. -/
theorem messages_step {d d' : Desktop} {action : DesktopAction}
    (h : desktopSystem.step d action = some d') :
    d'.messages = d.messages ∨ ∃ m, d'.messages = d.messages ++ [m] := by
  cases action with
  | postConnect | desktopResize | send =>
    obtain rfl := Option.some.inj h
    exact .inr ⟨_, rfl⟩
  | beginPaint | draw =>
    obtain rfl := Option.some.inj h
    exact .inl rfl
  | endPaint =>
    obtain ⟨update, -, rfl⟩ := Option.map_eq_some_iff.1 h
    cases update with
    | none => exact .inl rfl
    | some update => exact .inr ⟨_, rfl⟩

/-- **The framebuffer is the screen**, at the moment up to which the messages have been read. -/
theorem screen_shown {ε : Type*} (hsizes : ReadsSizes fromSlice) {actions : List DesktopAction}
    {d : Desktop} (hregular : desktopSystem.StepsMeet Regular {} actions)
    (hrun : desktopSystem.run {} actions = some d) {events : List (ReadEvent UInt8 ε)}
    (hrel : Reliable events) (hbytes : bytes events <+: wires d.messages) :
    ∃ before after d' s, actions = before ++ after ∧ desktopSystem.run {} before = some d' ∧
      wires d'.messages <+: bytes events ∧
      (∀ m rest, d.messages = d'.messages ++ m :: rest →
        (bytes events).length < (wires d'.messages).length + m.wire.length) ∧
      (bytes events = wires d.messages → after = []) ∧
      (sessionSystem 64 fromSlice).run {} (handlerCalls (readEvents events).1) = some s ∧
      (s.disconnected = true ↔ ∃ m ∈ d'.messages, m.kind = msgDisconnected) ∧
      (s.disconnected = false → (s.width, s.height) = d'.size ∧
        ∀ row < s.height, ∀ col < s.width,
          ((row, col) ∈ d'.sent → (row, col) ∉ d'.dirty →
            Swizzled (d'.gdi.pixel row col) (s.pixel row col)) ∧
          ((row, col) ∉ d'.sent → s.pixel row col = some [0, 0, 0, 0])) := by
  have hmirrored := mirrored_init.run hsizes hregular hrun
  obtain ⟨k, hk, hcalls, hheard, hnext, hall⟩ :=
    handlerCalls_of_isPrefix hrel hmirrored.sendable hbytes
  have hpoint : ∃ before after d', actions = before ++ after ∧
      desktopSystem.run {} before = some d' ∧ (bytes events = wires d.messages → after = []) ∧
      d'.messages = d.messages.take k := by
    by_cases heq : bytes events = wires d.messages
    · refine ⟨actions, [], d, (List.append_nil _).symm, hrun, fun _ ↦ rfl, ?_⟩
      rw [hall heq, List.take_length]
    · obtain ⟨before, after, d', hactions, hbefore, hmessages⟩ := Replica.exists_run_take
        Desktop.messages (fun _ _ _ ↦ messages_step) hrun (Nat.zero_le _) hk
      exact ⟨before, after, d', hactions, hbefore, fun h ↦ absurd h heq, hmessages⟩
  obtain ⟨before, after, d', rfl, hbefore, hafter, hmessages⟩ := hpoint
  obtain ⟨s, hs, hshows⟩ := (mirrored_init.run hsizes hregular.append_left hbefore).shows
  refine ⟨before, after, d', s, rfl, hbefore, hmessages ▸ hheard, hmessages ▸ hnext, hafter, ?_, ?_,
    fun hlive ↦ ⟨hshows.size hlive, fun row hrow col hcol ↦ ?_⟩⟩
  · rw [hcalls, ← hmessages, hs]
  · rw [disconnected_run_iff SessionState.valid_default hs]
    exact or_iff_right (show ¬(false = true) by decide)
  · obtain ⟨hagree, hblank⟩ := hshows.current hlive
    exact ⟨hagree (row, col) ⟨hrow, hcol⟩, hblank (row, col) ⟨hrow, hcol⟩⟩

/-! ### A first paint -/

/-- A reader of sizes. -/
def readSizeText (text : List UInt8) : Option JsonValue := do
  let (width, rest) ← parseNumber strtodInteger (text.drop 9)
  let (height, _) ← parseNumber strtodInteger (rest.drop 10)
  match width, height with
  | .number width, .number height =>
    if sizeText width.valueInt height.valueInt = text then
      some (.record [("width", .ofInt width.valueInt), ("height", .ofInt height.valueInt)])
    else none
  | _, _ => none

theorem readsSizes_readSizeText : ReadsSizes readSizeText := by
  intro width height hwidth hheight
  have hvalue {n : ℕ} (hn : n ≤ 8192) : (CDouble.finite ((n : ℤ) : ℚ)).valueInt = n := by
    have hbelow : ¬(2147483647 : ℚ) ≤ ((n : ℤ) : ℚ) := by
      exact_mod_cast (show ¬(2147483647 : ℤ) ≤ n by omega)
    have habove : ¬((n : ℤ) : ℚ) ≤ -2147483648 := by
      exact_mod_cast (show ¬(n : ℤ) ≤ -2147483648 by omega)
    rw [CDouble.valueInt, if_neg hbelow, if_neg habove, Rat.num_intCast, Rat.den_intCast,
      Nat.cast_one, Int.tdiv_one]
  have hread : parseNumber strtodInteger ((sizeText width height).drop 9) =
      some (.number (.finite ((width : ℤ) : ℚ)), utf8 ",\"height\":" ++ integerText height ++
        utf8 "\x7d") := by
    rw [sizeText, List.append_assoc, List.append_assoc, List.append_assoc,
      List.drop_left' (by decide), ← List.append_assoc (utf8 ",\"height\":")]
    refine parseNumber_integerText strtodExact_strtodInteger (by omega) ?_
    intro b hb
    obtain rfl : 0x2c = b := Option.some.inj hb
    decide
  have hread' : parseNumber strtodInteger ((utf8 ",\"height\":" ++ integerText height ++
      utf8 "\x7d").drop 10) = some (.number (.finite ((height : ℤ) : ℚ)), utf8 "\x7d") := by
    rw [List.append_assoc, List.drop_left' (by decide)]
    refine parseNumber_integerText strtodExact_strtodInteger (by omega) ?_
    intro b hb
    obtain rfl : 0x7d = b := Option.some.inj hb
    decide
  simp only [readSizeText, hread, hread', Option.bind_eq_bind, Option.bind_some,
    hvalue hwidth.2, hvalue hheight.2, if_true]

/-- The left pixel of two is painted. -/
def firstPaint : List DesktopAction :=
  [.postConnect 2 1 { halfInvalid with invalidNull := true }, .beginPaint, .draw halfInvalid,
    .endPaint]

theorem regular_firstPaint : desktopSystem.StepsMeet Regular {} firstPaint := by
  refine ⟨show (1 ≤ 2 ∧ 2 ≤ 8192) ∧ 1 ≤ 1 ∧ 1 ≤ 8192 by decide, fun d hd ↦ ?_⟩
  obtain rfl := Option.some.inj hd
  refine ⟨rfl, fun d hd ↦ ?_⟩
  obtain rfl := Option.some.inj hd
  refine ⟨⟨rfl, ⟨rfl, rfl⟩, fun p hp ↦ absurd hp.1 (by decide), fun _ _ _ ↦ rfl⟩, fun d hd ↦ ?_⟩
  obtain rfl := Option.some.inj hd
  refine ⟨fun _ ↦ ⟨⟨by decide, by decide, by decide, by decide, by decide, by decide⟩, ?_⟩,
    fun d hd ↦ trivial⟩
  rintro r c ⟨⟨hr, -⟩, -⟩
  have hr' : (r : ℤ) < 1 := hr
  have hstride : halfInvalid.stride.toInt = 8 := by decide
  show (r : ℤ) * halfInvalid.stride.toInt < 2147483648
  rw [hstride]
  omega

/-- The session has the size of the desktop, shows the left pixel in its color, and the right one,
which has not been painted, is blank. -/
theorem screen_shown_firstPaint :
    ∃ d s, desktopSystem.run {} firstPaint = some d ∧
      (sessionSystem 64 readSizeText).run {} (handlerCalls
        (readEvents (unread (wires d.messages) ([] : List (ReadEvent UInt8 Unit)))).1) = some s ∧
      s.disconnected = false ∧ s.width = 2 ∧ s.height = 1 ∧
      s.pixel 0 0 = some [30, 20, 10, 255] ∧ s.pixel 0 1 = some [0, 0, 0, 0] := by
  obtain ⟨d, hd⟩ : ∃ d, desktopSystem.run {} firstPaint = some d := ⟨_, rfl⟩
  have hfinal : d.gdi = halfInvalid ∧ d.painting = false ∧ d.size = (2, 1) ∧
      d.paints = [halfInvalid] ∧ d.messages.map Message.kind = [msgConnected, msgBitmapUpdate] := by
    obtain rfl := Option.some.inj hd
    exact ⟨rfl, rfl, rfl, rfl, rfl⟩
  obtain ⟨hgdi, hpainting, hsize, hpaints, hkinds⟩ := hfinal
  have hrel : Reliable (unread (wires d.messages) ([] : List (ReadEvent UInt8 Unit))) :=
    Reliable.unread (fun _ ↦ List.not_mem_nil) _
  have hbytes : bytes (unread (wires d.messages) ([] : List (ReadEvent UInt8 Unit))) =
      wires d.messages := by
    rw [bytes_unread]
    exact List.append_nil _
  obtain ⟨before, after, d', s, hactions, hbefore, -, -, hafter, hs, hended, hshown⟩ := screen_shown
    readsSizes_readSizeText regular_firstPaint hd hrel (hbytes.symm ▸ List.prefix_rfl)
  rw [hafter hbytes, List.append_nil] at hactions
  obtain rfl : d = d' := Option.some.inj (hd.symm.trans (hactions ▸ hbefore))
  have hlive : s.disconnected = false := by
    rw [← Bool.not_eq_true, hended]
    rintro ⟨m, hm, hkind⟩
    have hmem : m.kind ∈ [msgConnected, msgBitmapUpdate] := hkinds ▸ List.mem_map_of_mem hm
    rw [hkind] at hmem
    exact absurd hmem (by decide)
  obtain ⟨hsizes, hpixels⟩ := hshown hlive
  obtain ⟨hwidth, hheight⟩ := Prod.mk.inj (hsizes.trans hsize)
  have hsent (p : ℕ × ℕ) : p ∈ d.sent ↔ halfInvalid.Visible p.1 p.2 := by
    rw [Desktop.sent, hpaints]
    simp only [List.mem_singleton, exists_eq_left, Set.mem_ofPred_eq]
    exact and_iff_right rfl
  have hclean (p : ℕ × ℕ) : p ∉ d.dirty := fun hdirty ↦
    absurd (hdirty.1.symm.trans hpainting) (by decide)
  refine ⟨d, s, hd, hs, hlive, hwidth, hheight, ?_, ?_⟩
  · have hleft := (hpixels 0 (by omega) 0 (by omega)).1 ((hsent (0, 0)).2 (by decide)) (hclean _)
    rw [hgdi] at hleft
    obtain ⟨b, g, r, x, hsource, hpixel⟩ := hleft
    rw [show halfInvalid.pixel 0 0 = some [10, 20, 30, 0] from rfl] at hsource
    cases hsource
    exact hpixel
  · exact (hpixels 0 (by omega) 1 (by omega)).2 fun hmem ↦
      absurd ((hsent (0, 1)).1 hmem) (by decide)

end RdpMcp
