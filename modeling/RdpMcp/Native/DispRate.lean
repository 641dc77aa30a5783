import Mathlib.Data.List.Chain
import RdpMcp.Native.Disp

/-!
# The rate limit

Between two layouts that the remote side accepts, 200 ms should pass. Layouts leave the module in
three ways, and two of them look at the clock first: a request, and the check for a pending one. The
activation of the channel does not. **It sends what is pending, or the initial layout, however
little time has passed**, and since both survive a reconnection, that can be right behind a request.

The clock is read in a call before a decision and behind a send. A history is a list of calls whose
readings never go back; the time of an accepted layout is the reading behind its send, which is what
the module remembers.
-/

namespace RdpMcp

/-! ### Calls and the clock -/

namespace DispCall

/-- The readings of the clock in a call, in order. Where a call does not take one, any will do. -/
def readings : DispCall → List UInt64
  | caps send => [send.sentMs]
  | requestResize _ _ _ _ nowMs send => [nowMs, send.sentMs]
  | checkPending nowMs send => [nowMs, send.sentMs]
  | _ => []

/-- The last reading, at the end of a call. -/
def endMs (call : DispCall) (clockMs : UInt64) : UInt64 :=
  call.readings.getLast?.getD clockMs

end DispCall

/-- The module, the clock, and the times of the accepted layouts, the last one first. -/
structure DispTimes where
  module : Disp := {}
  clockMs : UInt64 := 0
  acceptedMs : List UInt64 := []
  deriving DecidableEq, Repr

namespace DispTimes

/-- One call. -/
def call (s : DispTimes) (call : DispCall) : DispTimes where
  module := (s.module.call call).2
  clockMs := call.endMs s.clockMs
  acceptedMs :=
    if (s.module.call call).1.isSome then call.endMs s.clockMs :: s.acceptedMs else s.acceptedMs

/-- **Any two consecutive layouts are 200 ms apart.** -/
def Spaced (s : DispTimes) : Prop :=
  s.acceptedMs.IsChain fun later earlier ↦ earlier.toNat + 200 ≤ later.toNat

/-- The module remembers when a layout was accepted last. -/
def Remembers (s : DispTimes) : Prop :=
  ∀ last ∈ s.acceptedMs.head?, s.module.lastSendMs = last ∧ last ≤ s.clockMs

/-- The call is made in the order of the clock. -/
def InOrder (s : DispTimes) (call : DispCall) : Prop :=
  (s.clockMs :: call.readings).Pairwise (· ≤ ·)

instance (s : DispTimes) (call : DispCall) : Decidable (s.InOrder call) :=
  inferInstanceAs (Decidable (List.Pairwise _ _))

/-- **An activation comes too soon** if the channel is there, something is pending or initial, the
send succeeds, and that is less than 200 ms behind the last accepted layout. -/
def TooSoon (s : DispTimes) : DispCall → Prop
  | .caps send =>
    s.InOrder (.caps send) ∧ s.module.disp = true ∧
      (s.module.pending = true ∨ s.module.initialSet = true) ∧ send.accepted = true ∧
      ∃ last ∈ s.acceptedMs.head?, send.sentMs.toNat < last.toNat + 200
  | _ => False

end DispTimes

/-- The module as a step system: a call out of the order of the clock cannot be made. -/
def dispTimesSystem : StepSystem DispTimes DispCall where
  step s call := if s.InOrder call then some (s.call call) else none

/-! ### One call -/

/-- A send that succeeds is remembered; nothing else is. -/
theorem Disp.lastSendMs_sendResizeLocked (s : Disp) (layout : Layout) (send : Send) :
    (s.sendResizeLocked layout send).2.lastSendMs =
      if (s.sendResizeLocked layout send).1.isSome then send.sentMs else s.lastSendMs := by
  rw [sendResizeLocked_eq]
  split <;> rfl

theorem Disp.lastSendMs_call (s : Disp) (call : DispCall) (clockMs : UInt64) :
    (s.call call).2.lastSendMs =
      if (s.call call).1.isSome then call.endMs clockMs else s.lastSendMs := by
  cases call with
  | channelConnected | channelDisconnected | setInitialLayout => rfl
  | caps send =>
    rw [Disp.call, caps]
    cases s.pending with
    | true => exact lastSendMs_sendResizeLocked _ _ send
    | false =>
      cases s.initialSet with
      | true => exact lastSendMs_sendResizeLocked _ _ send
      | false => rfl
  | requestResize width height desktopScaleFactor deviceScaleFactor nowMs send =>
    rw [Disp.call, requestResize]
    cases s.ready with
    | false => rfl
    | true =>
      cases s.cooling nowMs with
      | true => rfl
      | false => exact lastSendMs_sendResizeLocked _ _ send
  | checkPending nowMs send =>
    rw [Disp.call, checkPending]
    cases s.pending with
    | false => rfl
    | true =>
      cases s.ready with
      | false => rfl
      | true =>
        cases s.cooling nowMs with
        | true => rfl
        | false => exact lastSendMs_sendResizeLocked _ _ send

namespace DispTimes

variable {s : DispTimes} {next : DispCall}

theorem clockMs_le_endMs (horder : s.InOrder next) : s.clockMs ≤ next.endMs s.clockMs := by
  rw [DispCall.endMs]
  cases hlast : next.readings.getLast? with
  | none => exact UInt64.le_refl _
  | some last => exact List.rel_of_pairwise_cons horder (List.mem_of_getLast? hlast)

/-- What the module remembers stays true. -/
theorem Remembers.call (h : s.Remembers) (horder : s.InOrder next) : (s.call next).Remembers := by
  intro last hlast
  simp only [DispTimes.call, Disp.lastSendMs_call s.module next s.clockMs] at hlast ⊢
  split
  case isTrue haccepted =>
    rw [if_pos haccepted, List.head?_cons, Option.mem_some_iff] at hlast
    exact hlast ▸ ⟨rfl, UInt64.le_refl _⟩
  case isFalse hnone =>
    rw [if_neg hnone] at hlast
    obtain ⟨hremembered, hle⟩ := h last hlast
    exact ⟨hremembered, UInt64.le_trans hle (clockMs_le_endMs horder)⟩

/-- A decision that looks at the clock keeps the distance. -/
theorem le_of_not_cooling (h : s.Remembers) {nowMs sentMs : UInt64}
    (horder : [s.clockMs, nowMs, sentMs].Pairwise (· ≤ ·))
    (hcooling : s.module.cooling nowMs = false) :
    ∀ last ∈ s.acceptedMs.head?, last.toNat + 200 ≤ sentMs.toNat := by
  intro last hlast
  obtain ⟨hremembered, hle⟩ := h last hlast
  obtain ⟨hclock, hrest⟩ := List.pairwise_cons.1 horder
  have hle' : last ≤ nowMs := UInt64.le_trans hle (hclock nowMs List.mem_cons_self)
  have hsent : nowMs ≤ sentMs := List.rel_of_pairwise_cons hrest (List.mem_singleton_self _)
  rw [Disp.cooling, hremembered, decide_eq_false_iff_not, UInt64.lt_iff_toNat_lt,
    UInt64.toNat_sub_of_le _ _ hle'] at hcooling
  rw [UInt64.le_iff_toNat_le] at hle' hsent
  have hlimit : dispRateLimitMs.toNat = 200 := rfl
  omega

theorem TooSoon.inOrder (h : s.TooSoon next) : s.InOrder next := by
  cases next with
  | caps send => exact h.1
  | channelConnected | channelDisconnected | setInitialLayout | requestResize | checkPending =>
    cases h

/-- The activation accepts a layout exactly if the channel is there, there is one, and the send
succeeds. -/
theorem accepted_caps_iff (send : Send) : (s.module.call (.caps send)).1.isSome ↔
    s.module.disp = true ∧ (s.module.pending = true ∨ s.module.initialSet = true) ∧
      send.accepted = true := by
  rw [Disp.call, Disp.caps_fst]
  cases s.module.disp <;> cases send.accepted <;> cases s.module.pending <;>
    cases s.module.initialSet <;> simp

/-- A layout that is accepted is at its distance, unless the activation came too soon. -/
theorem spaced_accepted_iff (h : s.Remembers) (horder : s.InOrder next)
    (haccepted : (s.module.call next).1.isSome) :
    (∀ last ∈ s.acceptedMs.head?, last.toNat + 200 ≤ (next.endMs s.clockMs).toNat) ↔
      ¬s.TooSoon next := by
  cases next with
  | channelConnected | channelDisconnected | setInitialLayout => cases haccepted
  | caps send =>
    obtain ⟨hdisp, hlayout, haccept⟩ := (accepted_caps_iff send).1 haccepted
    rw [TooSoon]
    constructor
    · rintro hspaced ⟨-, -, -, -, last, hlast, hsoon⟩
      exact absurd (hspaced last hlast) (Nat.not_le.2 hsoon)
    · intro hsoon last hlast
      by_contra hlate
      exact hsoon ⟨horder, hdisp, hlayout, haccept, last, hlast, Nat.not_le.1 hlate⟩
  | requestResize width height desktopScaleFactor deviceScaleFactor nowMs send =>
    refine iff_of_true (le_of_not_cooling h horder ?_) id
    rw [Disp.call, Disp.requestResize_fst] at haccepted
    by_contra hcooling
    simp [Bool.not_eq_false _ ▸ hcooling] at haccepted
  | checkPending nowMs send =>
    refine iff_of_true (le_of_not_cooling h horder ?_) id
    rw [Disp.call, Disp.checkPending_fst] at haccepted
    by_contra hcooling
    simp [Bool.not_eq_false _ ▸ hcooling] at haccepted

/-- **One call** keeps the distance, exactly if it is not an activation that comes too soon. -/
theorem spaced_call_iff (h : s.Remembers) (hspaced : s.Spaced) (horder : s.InOrder next) :
    (s.call next).Spaced ↔ ¬s.TooSoon next := by
  simp only [Spaced, DispTimes.call]
  split
  case isTrue haccepted =>
    rw [List.isChain_cons, ← spaced_accepted_iff h horder haccepted]
    exact and_iff_left hspaced
  case isFalse hnone =>
    refine iff_of_true hspaced fun hsoon ↦ hnone ?_
    cases next with
    | caps send =>
      obtain ⟨-, hdisp, hlayout, haccept, -⟩ := hsoon
      exact (accepted_caps_iff send).2 ⟨hdisp, hlayout, haccept⟩
    | channelConnected | channelDisconnected | setInitialLayout | requestResize | checkPending =>
      cases hsoon

end DispTimes

/-- **Consecutive layouts are 200 ms apart, exactly in the runs in which no activation comes too
soon.** -/
theorem spaced_iff (calls : List DispCall) :
    (∀ pre post s, calls = pre ++ post → dispTimesSystem.run {} pre = some s → s.Spaced) ↔
      dispTimesSystem.StepsMeet (fun s call ↦ ¬s.TooSoon call) {} calls := by
  have hstep {s t : DispTimes} {call : DispCall} (h : dispTimesSystem.step s call = some t) :
      s.InOrder call ∧ s.call call = t :=
    (Option.ite_none_right_eq_some.1 h).imp_right Option.some.inj
  refine (StepSystem.stepsMeet_iff_forall_prefix (I := DispTimes.Remembers)
    (fun s call t h ht ↦ ?_) (fun s call _ hstuck ↦ ?_) (fun s call t h hspaced ht ↦ ?_)
    (fun last hlast ↦ by cases hlast) .nil).symm
  · obtain ⟨horder, rfl⟩ := hstep ht
    exact h.call horder
  · -- a call out of order is not made, and so it does not come too soon
    have hout : ¬s.InOrder call := fun horder ↦ by simp [dispTimesSystem, horder] at hstuck
    exact fun hsoon ↦ hout hsoon.inOrder
  · obtain ⟨horder, rfl⟩ := hstep ht
    exact DispTimes.spaced_call_iff h hspaced horder

/-- A request within the limit, and a reconnection. -/
def reconnected : List DispCall :=
  [.channelConnected, .caps ⟨true, 1000⟩, .requestResize 1024 768 100 100 1000 ⟨true, 1000⟩,
    .requestResize 1280 720 100 100 1010 ⟨true, 1010⟩, .channelDisconnected, .channelConnected,
    .caps ⟨true, 1020⟩]

/-- **The pending request leaves with the activation**, 20 ms behind the layout before it. -/
theorem reconnected_too_soon :
    ∃ s, dispTimesSystem.run {} reconnected = some s ∧ s.acceptedMs = [1020, 1000] ∧ ¬s.Spaced := by
  refine ⟨_, rfl, rfl, fun hspaced ↦ ?_⟩
  have hdistance := (List.isChain_cons_cons.1 hspaced).1
  exact absurd hdistance (by decide)

end RdpMcp
