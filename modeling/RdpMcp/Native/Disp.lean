import RdpMcp.Foundations.StepSystem

/-!
# Display control

The module that asks the remote desktop for a new size. Requests come at any time; a monitor layout
can be sent once the display control channel is there and activated, and not more often than every
200 ms. What cannot be sent at once is kept as the pending layout, of which there is at most one.

A request should not get lost: it is pending, or it is what the remote side accepted last
(`DispRun.NotLost`). **The pending flag is cleared before it is known whether the send succeeds**,
in all three places that send a request, and an initial layout may be sent behind a request.
`DispRun.Loses` is the exact condition on a step under which the request is lost, and `notLost_iff`
says so for whole runs.

Every function runs under the module's lock, so that a history of the module is a list of calls.
What `SendMonitorLayout` returns and what the clock shows are part of a call.
-/

namespace RdpMcp

/-! ### Layouts -/

/-- A size with its two scale factors, as C integers. -/
structure Layout where
  width : Int32
  height : Int32
  desktopScaleFactor : Int32
  deviceScaleFactor : Int32
  deriving DecidableEq, Repr

/-- `DISPLAY_CONTROL_MONITOR_LAYOUT`. -/
structure MonitorLayout where
  /-- `DISPLAY_CONTROL_MONITOR_PRIMARY`. -/
  flags : UInt32 := 1
  left : Int32 := 0
  top : Int32 := 0
  width : UInt32
  height : UInt32
  physicalWidth : UInt32 := 0
  physicalHeight : UInt32 := 0
  /-- `ORIENTATION_LANDSCAPE`. -/
  orientation : UInt32 := 0
  desktopScaleFactor : UInt32
  deviceScaleFactor : UInt32
  deriving DecidableEq, Repr

/-- The layout that `send_resize_locked` builds. -/
def Layout.monitor (layout : Layout) : MonitorLayout where
  width := layout.width.toUInt32
  height := layout.height.toUInt32
  desktopScaleFactor := layout.desktopScaleFactor.toUInt32
  deviceScaleFactor := layout.deviceScaleFactor.toUInt32

/-- `DISP_RATE_LIMIT_MS`. -/
def dispRateLimitMs : UInt64 := 200

/-- `DISP_MIN_SIZE`. -/
def dispMinSize : Int32 := 200

/-- `DISP_MAX_SIZE`. -/
def dispMaxSize : Int32 := 8192

/-- `clamp_even`: into the range, and down to an even number. -/
def clampEven (val minVal maxVal : Int32) : Int32 :=
  let val := if val < minVal then minVal else val
  let val := if val > maxVal then maxVal else val
  val &&& ~~~1

/-- A layout with its size clamped. -/
def clampedLayout (width height desktopScaleFactor deviceScaleFactor : Int32) : Layout where
  width := clampEven width dispMinSize dispMaxSize
  height := clampEven height dispMinSize dispMaxSize
  desktopScaleFactor
  deviceScaleFactor

/-! ### The module -/

/-- The state of the module, as `disp_init` leaves it. -/
structure Disp where
  /-- `s_disp` is not null. -/
  disp : Bool := false
  activated : Bool := false
  lastSendMs : UInt64 := 0
  pending : Bool := false
  pendingLayout : Layout := ⟨0, 0, 100, 100⟩
  initialSet : Bool := false
  initialLayout : Layout := ⟨0, 0, 100, 100⟩
  deriving DecidableEq, Repr

/-- What becomes of a call of `SendMonitorLayout`, and the clock behind it. -/
structure Send where
  accepted : Bool
  sentMs : UInt64
  deriving DecidableEq, Repr

namespace Disp

/-- A layout can be sent. -/
def ready (s : Disp) : Bool :=
  s.disp && s.activated

/-- Less than the rate limit has passed since the last send. -/
def cooling (s : Disp) (nowMs : UInt64) : Bool :=
  nowMs - s.lastSendMs < dispRateLimitMs

/-- `send_resize_locked`, with the layout that is accepted. -/
def sendResizeLocked (s : Disp) (layout : Layout) (send : Send) : Option MonitorLayout × Disp :=
  if !s.ready then (none, s)
  else if !send.accepted then (none, s)
  else (some layout.monitor, { s with lastSendMs := send.sentMs })

/-- `cb_disp_caps`. -/
def caps (s : Disp) (send : Send) : Option MonitorLayout × Disp :=
  let s := { s with activated := true }
  let sent :=
    if s.pending then { s with pending := false }.sendResizeLocked s.pendingLayout send
    else if s.initialSet then s.sendResizeLocked s.initialLayout send
    else (none, s)
  (sent.1, { sent.2 with initialSet := false })

/-- `disp_channel_connected`. -/
def channelConnected (s : Disp) : Disp :=
  { s with disp := true, activated := false }

/-- `disp_channel_disconnected`: a pending layout is kept. -/
def channelDisconnected (s : Disp) : Disp :=
  { s with disp := false, activated := false }

/-- `disp_set_initial_layout`. -/
def setInitialLayout (s : Disp) (layout : Layout) : Disp :=
  { s with initialLayout := layout, initialSet := true }

/-- `disp_request_resize`, with its sizes clamped. -/
def requestResize (s : Disp) (layout : Layout) (nowMs : UInt64) (send : Send) :
    Option MonitorLayout × Disp :=
  if !s.ready then (none, { s with pending := true, pendingLayout := layout })
  else if s.cooling nowMs then (none, { s with pending := true, pendingLayout := layout })
  else
    let sent := s.sendResizeLocked layout send
    (sent.1, { sent.2 with pending := false })

/-- `disp_check_pending`. -/
def checkPending (s : Disp) (nowMs : UInt64) (send : Send) : Option MonitorLayout × Disp :=
  if !s.pending || !s.ready then (none, s)
  else if s.cooling nowMs then (none, s)
  else { s with pending := false }.sendResizeLocked s.pendingLayout send

end Disp

/-- A call of the module. -/
inductive DispCall where
  | channelConnected
  | channelDisconnected
  | caps (send : Send)
  | setInitialLayout (width height desktopScaleFactor deviceScaleFactor : Int32)
  | requestResize (width height desktopScaleFactor deviceScaleFactor : Int32) (nowMs : UInt64)
      (send : Send)
  | checkPending (nowMs : UInt64) (send : Send)
  deriving DecidableEq, Repr

/-- The module and its history: what was requested last and what was accepted last. -/
structure DispRun where
  module : Disp := {}
  requested : Option Layout := none
  accepted : Option MonitorLayout := none
  deriving DecidableEq, Repr

namespace DispRun

/-- The module has done its part; a layout that was accepted is the last one. -/
def sent (s : DispRun) (result : Option MonitorLayout × Disp) : DispRun :=
  { s with module := result.2, accepted := result.1.or s.accepted }

/-- One call. -/
def call (s : DispRun) : DispCall → DispRun
  | .channelConnected => { s with module := s.module.channelConnected }
  | .channelDisconnected => { s with module := s.module.channelDisconnected }
  | .caps send => s.sent (s.module.caps send)
  | .setInitialLayout width height desktopScaleFactor deviceScaleFactor =>
    let layout := clampedLayout width height desktopScaleFactor deviceScaleFactor
    { s with module := s.module.setInitialLayout layout }
  | .requestResize width height desktopScaleFactor deviceScaleFactor nowMs send =>
    let layout := clampedLayout width height desktopScaleFactor deviceScaleFactor
    { s with requested := some layout }.sent (s.module.requestResize layout nowMs send)
  | .checkPending nowMs send => s.sent (s.module.checkPending nowMs send)

/-- **The last request is not lost**: it is pending, or it is what was accepted last. -/
def NotLost (s : DispRun) : Prop :=
  ∀ request ∈ s.requested, s.module.pending = true ∧ s.module.pendingLayout = request ∨
    s.accepted = some request.monitor

/-- The last accepted layout is not that of `layout`, and `send` does not make it so. -/
def Misses (s : DispRun) (layout : Layout) (send : Send) : Prop :=
  send.accepted = false ∧ s.accepted ≠ some layout.monitor

/-- **The calls that lose a request**: a request, pending or new, is sent and the send fails, the
activation finds no channel to send the pending request to, or the initial layout is accepted behind
a request for another one. -/
def Loses (s : DispRun) : DispCall → Prop
  | .caps send =>
    (s.module.pending = true ∧ (s.module.disp && send.accepted) = false ∧
        s.accepted ≠ some s.module.pendingLayout.monitor) ∨
      (s.module.pending = false ∧ s.module.initialSet = true ∧ s.module.disp = true ∧
        send.accepted = true ∧
        ∃ request ∈ s.requested, s.module.initialLayout.monitor ≠ request.monitor)
  | .requestResize width height desktopScaleFactor deviceScaleFactor nowMs send =>
    s.module.ready = true ∧ s.module.cooling nowMs = false ∧
      s.Misses (clampedLayout width height desktopScaleFactor deviceScaleFactor) send
  | .checkPending nowMs send =>
    s.module.pending = true ∧ s.module.ready = true ∧ s.module.cooling nowMs = false ∧
      s.Misses s.module.pendingLayout send
  | _ => False

/-- A pending layout is that of the last request. -/
def PendingRequested (s : DispRun) : Prop :=
  s.module.pending = true → s.requested = some s.module.pendingLayout

end DispRun

/-- The module as a step system. -/
def dispSystem : StepSystem DispRun DispCall where
  step s call := some (s.call call)

/-! ### One call -/

theorem Disp.sendResizeLocked_eq (s : Disp) (layout : Layout) (send : Send) :
    s.sendResizeLocked layout send =
      if s.ready && send.accepted then (some layout.monitor, { s with lastSendMs := send.sentMs })
      else (none, s) := by
  rw [sendResizeLocked]
  cases s.ready <;> cases send.accepted <;> rfl

namespace DispRun

variable {s : DispRun}

/-- A pending layout is that of the last request, after every call. -/
theorem PendingRequested.call (h : s.PendingRequested) (call : DispCall) :
    (s.call call).PendingRequested := by
  cases call with
  | channelConnected | channelDisconnected | setInitialLayout => exact h
  | caps send =>
    simp only [DispRun.call, Disp.caps, Disp.sendResizeLocked_eq, PendingRequested, DispRun.sent]
    split
    · split <;> exact fun hpending ↦ nomatch hpending
    · split
      · split <;> exact h
      · exact h
  | requestResize width height desktopScaleFactor deviceScaleFactor nowMs send =>
    simp only [DispRun.call, Disp.requestResize, Disp.sendResizeLocked_eq, PendingRequested,
      DispRun.sent]
    split
    · exact fun _ ↦ rfl
    · split
      · exact fun _ ↦ rfl
      · exact fun hpending ↦ nomatch hpending
  | checkPending nowMs send =>
    simp only [DispRun.call, Disp.checkPending, Disp.sendResizeLocked_eq, PendingRequested,
      DispRun.sent]
    split
    · exact h
    · split
      · exact h
      · split <;> exact fun hpending ↦ nomatch hpending

@[simp]
theorem sent_none (s : DispRun) : s.sent (none, s.module) = s :=
  rfl

/-- Without a pending layout, the last request is not lost if and only if it was accepted last. -/
theorem notLost_iff_of_not_pending {request : Layout} (hpending : s.module.pending = false)
    (hrequested : s.requested = some request) :
    s.NotLost ↔ s.accepted = some request.monitor := by
  simp only [NotLost, hrequested, Option.mem_some_iff, forall_eq', hpending, Bool.false_eq_true,
    false_and, false_or]

/-- A layout that is sent and no longer pending was accepted last, unless the send missed it. -/
theorem accepted_sent_iff (s : DispRun) {module : Disp} (hready : module.ready = true)
    (layout : Layout) (send : Send) :
    (module.sendResizeLocked layout send).1.or s.accepted = some layout.monitor ↔
      ¬s.Misses layout send := by
  rw [Disp.sendResizeLocked_eq, hready, Bool.true_and, Misses]
  cases send.accepted with
  | true => simp
  | false => simp

theorem pending_sendResizeLocked (module : Disp) (layout : Layout) (send : Send) :
    (module.sendResizeLocked layout send).2.pending = module.pending := by
  rw [Disp.sendResizeLocked_eq]
  split <;> rfl

/-- The request of a call is not lost. -/
theorem notLost_requestResize_iff (s : DispRun)
    (width height desktopScaleFactor deviceScaleFactor : Int32) (nowMs : UInt64) (send : Send) :
    (s.call (.requestResize width height desktopScaleFactor deviceScaleFactor nowMs send)).NotLost ↔
      ¬s.Loses (.requestResize width height desktopScaleFactor deviceScaleFactor nowMs send) := by
  simp only [call, Loses, Disp.requestResize]
  generalize clampedLayout width height desktopScaleFactor deviceScaleFactor = layout
  cases hready : s.module.ready with
  | false =>
    -- before the activation it waits
    simp only [Bool.not_false, if_true, Bool.false_eq_true, false_and, not_false_iff, iff_true]
    rintro request hrequest
    obtain rfl := Option.some.inj hrequest
    exact .inl ⟨rfl, rfl⟩
  | true =>
    simp only [Bool.not_true, Bool.false_eq_true, if_false, true_and]
    cases hcooling : s.module.cooling nowMs with
    | true =>
      -- so it does within the cooldown
      simp only [if_true, Bool.true_eq_false, false_and, not_false_iff, iff_true]
      rintro request hrequest
      obtain rfl := Option.some.inj hrequest
      exact .inl ⟨rfl, rfl⟩
    | false =>
      simp only [Bool.false_eq_true, if_false, true_and]
      rw [notLost_iff_of_not_pending rfl (show _ = some layout from rfl)]
      exact accepted_sent_iff s hready layout send

/-- A pending layout that is sent is not lost. -/
theorem notLost_sent_pending_iff (hrequested : s.requested = some s.module.pendingLayout)
    {module : Disp} (hready : module.ready = true) (send : Send) :
    (s.sent
        ({ module with pending := false }.sendResizeLocked s.module.pendingLayout send)).NotLost ↔
      ¬s.Misses s.module.pendingLayout send := by
  have hclear : (s.sent ({ module with pending := false }.sendResizeLocked s.module.pendingLayout
      send)).module.pending = false := pending_sendResizeLocked _ _ _
  rw [notLost_iff_of_not_pending hclear hrequested]
  have hready' : ({ module with pending := false } : Disp).ready = true := hready
  exact accepted_sent_iff s hready' s.module.pendingLayout send

theorem notLost_checkPending_iff (hinv : s.PendingRequested) (h : s.NotLost) (nowMs : UInt64)
    (send : Send) :
    (s.call (.checkPending nowMs send)).NotLost ↔ ¬s.Loses (.checkPending nowMs send) := by
  simp only [call, Loses, Disp.checkPending]
  cases hpending : s.module.pending with
  | false => simpa using h
  | true =>
    cases hready : s.module.ready with
    | false => simpa using h
    | true =>
      cases hcooling : s.module.cooling nowMs with
      | true => simpa using h
      | false =>
        simp only [Bool.not_true, Bool.or_self, Bool.false_eq_true, if_false, true_and]
        exact notLost_sent_pending_iff (hinv hpending) hready send

theorem notLost_caps_iff (hinv : s.PendingRequested) (h : s.NotLost) (send : Send) :
    (s.call (.caps send)).NotLost ↔ ¬s.Loses (.caps send) := by
  simp only [call, Loses, Disp.caps, Disp.sendResizeLocked_eq, Disp.ready, Bool.and_true]
  cases hpending : s.module.pending with
  | true =>
    cases hsend : s.module.disp && send.accepted with
    | true =>
      simp only [if_true]
      rw [notLost_iff_of_not_pending (s := s.sent _) rfl (hinv hpending)]
      simp [DispRun.sent]
    | false =>
      simp only [Bool.false_eq_true, if_true, if_false]
      rw [notLost_iff_of_not_pending (s := s.sent _) rfl (hinv hpending)]
      simp [DispRun.sent]
  | false =>
    -- only the initial layout is sent, and then it is what was accepted last
    have haccepted : s.NotLost ↔ ∀ request ∈ s.requested, s.accepted = some request.monitor := by
      simp [NotLost, hpending]
    simp only [Bool.false_eq_true, false_and, if_false, true_and, false_or]
    cases hinitial : s.module.initialSet with
    | false => simpa [NotLost, DispRun.sent, hpending] using haccepted.1 h
    | true =>
      cases hsend : s.module.disp && send.accepted with
      | false =>
        simp only [if_true, Bool.false_eq_true, if_false, true_and]
        refine iff_of_true (fun request hrequest ↦ .inr (haccepted.1 h request hrequest)) ?_
        rintro ⟨hdisp, haccept, -⟩
        rw [hdisp, haccept] at hsend
        cases hsend
      | true =>
        obtain ⟨hdisp, haccept⟩ := Bool.and_eq_true_iff.1 hsend
        simp only [if_true, hdisp, haccept, true_and, not_exists, not_and, ne_eq, not_not]
        simp [NotLost, DispRun.sent]

/-- **One call**: the last request is not lost, exactly if the call is not one that loses it. -/
theorem notLost_call_iff (hinv : s.PendingRequested) (h : s.NotLost) (call : DispCall) :
    (s.call call).NotLost ↔ ¬s.Loses call := by
  cases call with
  | channelConnected | channelDisconnected | setInitialLayout => exact iff_of_true h id
  | caps send => exact notLost_caps_iff hinv h send
  | requestResize width height desktopScaleFactor deviceScaleFactor nowMs send =>
    exact notLost_requestResize_iff s width height desktopScaleFactor deviceScaleFactor nowMs send
  | checkPending nowMs send => exact notLost_checkPending_iff hinv h nowMs send

end DispRun

/-- **No request is lost, exactly in the runs in which no call loses one.** -/
theorem notLost_iff (calls : List DispCall) :
    (∀ pre post s, calls = pre ++ post → dispSystem.run {} pre = some s → s.NotLost) ↔
      dispSystem.StepsMeet (fun s call ↦ ¬s.Loses call) {} calls := by
  refine (StepSystem.stepsMeet_iff_forall_prefix (I := DispRun.PendingRequested)
    (fun s call t h hstep ↦ ?_) (fun s call _ hstuck ↦ nomatch hstuck)
    (fun s call t hinv h hstep ↦ ?_) (fun h ↦ by cases h) fun request h ↦ by cases h).symm
  · obtain rfl := Option.some.inj hstep
    exact h.call call
  · obtain rfl := Option.some.inj hstep
    exact DispRun.notLost_call_iff hinv h call

/-- **A request whose send fails is lost**, behind an activation and long after the last send. -/
theorem failed_request_lost :
    ∃ s, dispSystem.run {} [.channelConnected, .caps ⟨true, 1000⟩,
        .requestResize 1024 768 100 100 2000 ⟨false, 2000⟩] = some s ∧
      s.requested = some ⟨1024, 768, 100, 100⟩ ∧ s.module.pending = false ∧ s.accepted = none ∧
        ¬s.NotLost := by
  refine ⟨_, rfl, by decide, rfl, rfl, fun h ↦ ?_⟩
  rcases h ⟨1024, 768, 100, 100⟩ (by decide) with ⟨hpending, -⟩ | haccepted
  · exact absurd hpending (by decide)
  · exact absurd haccepted (by decide)

/-! ### What a call passes on -/

/-- A call of the module: the layout that is accepted, if any, and the state behind it. -/
def Disp.call (s : Disp) : DispCall → Option MonitorLayout × Disp
  | .channelConnected => (none, s.channelConnected)
  | .channelDisconnected => (none, s.channelDisconnected)
  | .caps send => s.caps send
  | .setInitialLayout width height desktopScaleFactor deviceScaleFactor =>
    (none, s.setInitialLayout (clampedLayout width height desktopScaleFactor deviceScaleFactor))
  | .requestResize width height desktopScaleFactor deviceScaleFactor nowMs send =>
    s.requestResize (clampedLayout width height desktopScaleFactor deviceScaleFactor) nowMs send
  | .checkPending nowMs send => s.checkPending nowMs send

/-- It is the call that a history of the module makes. -/
theorem DispRun.module_call (s : DispRun) (call : DispCall) :
    (s.call call).module = (s.module.call call).2 ∧
      (s.call call).accepted = (s.module.call call).1.or s.accepted := by
  cases call <;> exact ⟨rfl, rfl⟩

namespace DispCall

/-- The send in a call. -/
def send? : DispCall → Option Send
  | caps send => some send
  | requestResize _ _ _ _ _ send => some send
  | checkPending _ send => some send
  | _ => none

/-- The same call, with a send that is accepted. -/
def accepting : DispCall → DispCall
  | caps send => caps { send with accepted := true }
  | requestResize width height desktopScaleFactor deviceScaleFactor nowMs send =>
    requestResize width height desktopScaleFactor deviceScaleFactor nowMs
      { send with accepted := true }
  | checkPending nowMs send => checkPending nowMs { send with accepted := true }
  | call => call

end DispCall

/-- The layout that a call passes to `SendMonitorLayout`, if it gets there. What is passed does not
depend on what comes back. -/
def Disp.passed (s : Disp) (call : DispCall) : Option MonitorLayout :=
  (s.call call.accepting).1

namespace Disp

variable (s : Disp)

theorem sendResizeLocked_fst (layout : Layout) (send : Send) :
    (s.sendResizeLocked layout send).1 =
      if s.ready && send.accepted then some layout.monitor else none := by
  rw [sendResizeLocked_eq]
  split <;> rfl

/-- The activation passes on the pending layout, or else the initial one. -/
theorem caps_fst (send : Send) : (s.caps send).1 =
    if s.disp && send.accepted then
      if s.pending then some s.pendingLayout.monitor
      else if s.initialSet then some s.initialLayout.monitor
      else none
    else none := by
  rw [caps]
  cases s.pending with
  | true => exact (sendResizeLocked_fst _ _ send).trans (by rw [ready, Bool.and_true]; rfl)
  | false =>
    cases s.initialSet with
    | true => exact (sendResizeLocked_fst _ _ send).trans (by rw [ready, Bool.and_true]; rfl)
    | false => simp

/-- A request is passed on at once, or not at all. -/
theorem requestResize_fst (layout : Layout) (nowMs : UInt64) (send : Send) :
    (s.requestResize layout nowMs send).1 =
      if s.ready && !s.cooling nowMs && send.accepted then some layout.monitor else none := by
  rw [requestResize]
  cases hready : s.ready with
  | false => rfl
  | true =>
    cases s.cooling nowMs with
    | true => rfl
    | false => exact (sendResizeLocked_fst s layout send).trans (by rw [hready]; rfl)

/-- A check passes on the pending layout. -/
theorem checkPending_fst (nowMs : UInt64) (send : Send) : (s.checkPending nowMs send).1 =
    if s.pending && s.ready && !s.cooling nowMs && send.accepted then some s.pendingLayout.monitor
    else none := by
  rw [checkPending]
  cases s.pending with
  | false => rfl
  | true =>
    cases hready : s.ready with
    | false => rfl
    | true =>
      cases s.cooling nowMs with
      | true => rfl
      | false =>
        refine (sendResizeLocked_fst _ s.pendingLayout send).trans ?_
        rw [show ready { s with pending := false } = true from hready]
        rfl

/-- **A layout is accepted exactly if it is passed on and the send succeeds.** -/
theorem call_fst_eq_some_iff (call : DispCall) (monitor : MonitorLayout) :
    (s.call call).1 = some monitor ↔
      s.passed call = some monitor ∧ ∃ send ∈ call.send?, send.accepted = true := by
  cases call with
  | channelConnected | channelDisconnected | setInitialLayout => exact iff_of_false nofun nofun
  | caps send =>
    simp only [Disp.passed, DispCall.accepting, Disp.call, caps_fst, DispCall.send?,
      Option.mem_some_iff, exists_eq_left']
    cases send.accepted <;> simp
  | requestResize width height desktopScaleFactor deviceScaleFactor nowMs send =>
    simp only [Disp.passed, DispCall.accepting, Disp.call, requestResize_fst, DispCall.send?,
      Option.mem_some_iff, exists_eq_left']
    cases send.accepted <;> simp
  | checkPending nowMs send =>
    simp only [Disp.passed, DispCall.accepting, Disp.call, checkPending_fst, DispCall.send?,
      Option.mem_some_iff, exists_eq_left']
    cases send.accepted <;> simp

end Disp

end RdpMcp
