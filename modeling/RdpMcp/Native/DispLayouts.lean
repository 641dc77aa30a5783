import Mathlib.Data.List.Forall2
import RdpMcp.Native.Accepted
import RdpMcp.Native.Disp

/-!
# Which layouts are sent

Every layout that the module passes to `SendMonitorLayout` is the clamped form of one call, a
request or an initial layout, and **no call is passed on twice**, whatever becomes of the sends: the
two slots that a layout can wait in are emptied before it is sent. So a history of layouts can be
traced back, one by one, to different calls that came before (`layouts_recognised`).

The other side of the pipe waits for the size it has asked for. It clamps in its own way, on
unsigned numbers; the module clamps again, on signed ones, and changes nothing.
-/

namespace RdpMcp

/-! ### Clamping -/

theorem toNat_and_not_one (x : BitVec 32) : (x &&& ~~~1#32).toNat = x.toNat / 2 * 2 := by
  have hshift : x &&& ~~~1#32 = (x >>> 1) <<< 1 := by
    refine BitVec.eq_of_getLsbD_eq fun i hi ↦ ?_
    rw [BitVec.getLsbD_and, BitVec.getLsbD_not, BitVec.getLsbD_one, BitVec.getLsbD_shiftLeft,
      BitVec.getLsbD_ushiftRight]
    cases i with
    | zero => simp
    | succ i => simp [hi, Nat.add_comm 1 i]
  have hlt := x.isLt
  rw [hshift, BitVec.toNat_shiftLeft, BitVec.toNat_ushiftRight, Nat.shiftRight_eq_div_pow,
    Nat.shiftLeft_eq]
  omega

theorem toNat_toUInt32_of_nonneg {v : Int32} (h : 0 ≤ v.toInt) :
    v.toUInt32.toNat = v.toInt.toNat := by
  have hlt := v.toBitVec.isLt
  have hint : v.toInt = v.toBitVec.toInt := rfl
  have hnat : v.toUInt32.toNat = v.toBitVec.toNat := rfl
  rw [BitVec.toInt_eq_toNat_cond] at hint
  split at hint <;> omega

/-- **`clamp_even`, in numbers.** -/
theorem toNat_clampEven (val : Int32) :
    (clampEven val dispMinSize dispMaxSize).toUInt32.toNat =
      (max 200 (min val.toInt 8192)).toNat / 2 * 2 := by
  have hmin : dispMinSize.toInt = 200 := rfl
  have hmax : dispMaxSize.toInt = 8192 := rfl
  have heven {v : Int32} (hv : 0 ≤ v.toInt) :
      (v &&& ~~~1).toUInt32.toNat = v.toInt.toNat / 2 * 2 := by
    rw [← toNat_toUInt32_of_nonneg hv]
    exact toNat_and_not_one v.toBitVec
  rw [clampEven]
  simp only [Int32.lt_iff_toInt_lt, gt_iff_lt, hmin, hmax]
  split
  · rw [if_neg (by omega), heven (by omega), hmin]
    omega
  · split
    · rw [heven (by omega), hmax]
      omega
    · rw [heven (by omega)]
      omega

/-- A side of a layout: even, and in range. -/
def IsSide (n : UInt32) : Prop :=
  n.toNat % 2 = 0 ∧ 200 ≤ n.toNat ∧ n.toNat ≤ 8192

theorem isSide_clampEven (val : Int32) :
    IsSide (clampEven val dispMinSize dispMaxSize).toUInt32 := by
  rw [IsSide, toNat_clampEven]
  omega

/-- A side that was clamped on the other side of the pipe is not changed. -/
theorem toNat_clampEven_clampSize (n : ℕ) :
    (clampEven (Int32.ofInt (clampSize n)) dispMinSize dispMaxSize).toUInt32.toNat =
      clampSize n := by
  have hle := clampSize_le n
  have hint : (Int32.ofInt (clampSize n)).toInt = clampSize n :=
    Int32.toInt_ofInt_of_le (by omega) (by omega)
  rw [toNat_clampEven, hint]
  rw [clampSize] at hle ⊢
  omega

/-! ### Calls and what becomes of them -/

/-- The layout a call asks for, clamped. -/
def DispCall.layout? : DispCall → Option Layout
  | requestResize width height desktopScaleFactor deviceScaleFactor _ _ =>
    some (clampedLayout width height desktopScaleFactor deviceScaleFactor)
  | setInitialLayout width height desktopScaleFactor deviceScaleFactor =>
    some (clampedLayout width height desktopScaleFactor deviceScaleFactor)
  | _ => none

/-- The module and its history: the calls, and every layout that was passed on with the index of the
call that did it. -/
structure DispHistory where
  module : Disp := {}
  calls : List DispCall := []
  passed : List (ℕ × MonitorLayout) := []

namespace DispHistory

/-- One call. -/
def call (s : DispHistory) (call : DispCall) : DispHistory where
  module := (s.module.call call).2
  calls := s.calls ++ [call]
  passed := s.passed ++ ((s.module.passed call).map fun monitor ↦ (s.calls.length, monitor)).toList

end DispHistory

/-- The module as a step system. -/
def dispHistorySystem : StepSystem DispHistory DispCall where
  step s call := some (s.call call)

/-- The call with an index asks for a layout. -/
def AsksFor (calls : List DispCall) (i : ℕ) (layout : Layout) : Prop :=
  ∃ call, calls[i]? = some call ∧ call.layout? = some layout

/-- What was passed on is the layout of a call that came before, or is the call itself. -/
def ComesFrom (calls : List DispCall) (passed : ℕ × MonitorLayout) (i : ℕ) : Prop :=
  i ≤ passed.1 ∧ ∃ layout, AsksFor calls i layout ∧ passed.2 = layout.monitor

/-! ### The slots -/

namespace Disp

/-- Nothing new waits in the two slots. -/
structure KeepsSlots (s t : Disp) : Prop where
  pending : t.pending = true → s.pending = true ∧ t.pendingLayout = s.pendingLayout
  initial : t.initialSet = true → s.initialSet = true ∧ t.initialLayout = s.initialLayout

/-- What a call can do with layouts: leave them, pass on one out of a slot that is empty then, pass
on its own, or put its own into a slot. -/
inductive Moves (s : Disp) (call : DispCall) : Option MonitorLayout → Disp → Prop
  | kept {t : Disp} (h : KeepsSlots s t) : Moves s call none t
  | drained {t : Disp} (hpending : s.pending = true) (ht : t.pending = false) (h : KeepsSlots s t) :
      Moves s call (some s.pendingLayout.monitor) t
  | initial {t : Disp} (hinitial : s.initialSet = true) (ht : t.initialSet = false)
      (h : KeepsSlots s t) : Moves s call (some s.initialLayout.monitor) t
  | sent {t : Disp} {layout : Layout} (hcall : call.layout? = some layout) (h : KeepsSlots s t) :
      Moves s call (some layout.monitor) t
  | parked {layout : Layout} (hcall : call.layout? = some layout) :
      Moves s call none { s with pending := true, pendingLayout := layout }
  | stored {layout : Layout} (hcall : call.layout? = some layout) :
      Moves s call none { s with initialSet := true, initialLayout := layout }

theorem KeepsSlots.refl (s : Disp) : KeepsSlots s s :=
  ⟨fun h ↦ ⟨h, rfl⟩, fun h ↦ ⟨h, rfl⟩⟩

/-- Nothing waits for a request any more. -/
theorem KeepsSlots.of_not_pending {s t : Disp} (hpending : t.pending = false)
    (hinitial : t.initialSet = true → s.initialSet = true ∧ t.initialLayout = s.initialLayout) :
    KeepsSlots s t :=
  ⟨fun h ↦ absurd (hpending.symm.trans h) Bool.false_ne_true, hinitial⟩

/-- Nothing waits at all. -/
theorem KeepsSlots.of_empty {s t : Disp} (hpending : t.pending = false)
    (hinitial : t.initialSet = false) : KeepsSlots s t :=
  .of_not_pending hpending fun h ↦ absurd (hinitial.symm.trans h) Bool.false_ne_true

/-- A send touches the time of the last one and nothing else. -/
theorem exists_sendResizeLocked_snd (s : Disp) (layout : Layout) (send : Send) :
    ∃ ms, (s.sendResizeLocked layout send).2 = { s with lastSendMs := ms } := by
  rw [sendResizeLocked_eq]
  split
  · exact ⟨send.sentMs, rfl⟩
  · exact ⟨s.lastSendMs, rfl⟩

theorem moves_caps (s : Disp) (send : Send) :
    s.Moves (.caps send) (s.passed (.caps send)) (s.caps send).2 := by
  rw [passed, DispCall.accepting, Disp.call, caps_fst, caps]
  cases hpending : s.pending with
  | true =>
    -- the pending layout is dropped from its slot, sent or not
    obtain ⟨ms, hsent⟩ := exists_sendResizeLocked_snd
      { s with activated := true, pending := false } s.pendingLayout send
    simp only [if_true, Bool.and_true] at hsent ⊢
    rw [hsent]
    split
    · exact .drained hpending rfl (.of_empty rfl rfl)
    · exact .kept (.of_empty rfl rfl)
  | false =>
    cases hinitial : s.initialSet with
    | true =>
      obtain ⟨ms, hsent⟩ := exists_sendResizeLocked_snd
        { s with activated := true } s.initialLayout send
      simp only [hpending, hinitial, if_true, Bool.and_true, Bool.false_eq_true, if_false]
        at hsent ⊢
      rw [hsent]
      split
      · exact .initial hinitial rfl (.of_empty rfl rfl)
      · exact .kept (.of_empty rfl rfl)
    | false =>
      simp only [Bool.false_eq_true, if_false, ite_self]
      exact .kept (.of_empty rfl rfl)

theorem moves_requestResize (s : Disp) (width height desktopScaleFactor deviceScaleFactor : Int32)
    (nowMs : UInt64) (send : Send) :
    let call := DispCall.requestResize width height desktopScaleFactor deviceScaleFactor nowMs send
    s.Moves call (s.passed call) (s.call call).2 := by
  intro call
  simp only [call, passed, DispCall.accepting, Disp.call, requestResize_fst]
  rw [requestResize]
  cases s.ready with
  | false => exact .parked rfl
  | true =>
    cases s.cooling nowMs with
    | true => exact .parked rfl
    | false =>
      obtain ⟨ms, hsent⟩ := exists_sendResizeLocked_snd s
        (clampedLayout width height desktopScaleFactor deviceScaleFactor) send
      simp only [Bool.not_true, Bool.false_eq_true, if_false, hsent]
      exact .sent rfl (.of_not_pending rfl fun h ↦ ⟨h, rfl⟩)

theorem moves_checkPending (s : Disp) (nowMs : UInt64) (send : Send) :
    s.Moves (.checkPending nowMs send) (s.passed (.checkPending nowMs send))
      (s.checkPending nowMs send).2 := by
  rw [passed, DispCall.accepting, Disp.call, checkPending_fst, checkPending]
  cases hpending : s.pending with
  | false => exact .kept (.refl s)
  | true =>
    cases s.ready with
    | false => exact .kept (.refl s)
    | true =>
      cases s.cooling nowMs with
      | true => exact .kept (.refl s)
      | false =>
        obtain ⟨ms, hsent⟩ := exists_sendResizeLocked_snd { s with pending := false }
          s.pendingLayout send
        simp only [Bool.not_true, Bool.or_self, Bool.false_eq_true, if_false, hsent]
        exact .drained hpending rfl (.of_not_pending rfl fun h ↦ ⟨h, rfl⟩)

/-- **Every call is such a move.** -/
theorem moves (s : Disp) (call : DispCall) : s.Moves call (s.passed call) (s.call call).2 := by
  cases call with
  | channelConnected | channelDisconnected =>
    exact .kept ⟨fun h ↦ ⟨h, rfl⟩, fun h ↦ ⟨h, rfl⟩⟩
  | setInitialLayout => exact .stored rfl
  | caps send => exact moves_caps s send
  | requestResize width height desktopScaleFactor deviceScaleFactor nowMs send =>
    exact moves_requestResize s _ _ _ _ nowMs send
  | checkPending nowMs send => exact moves_checkPending s nowMs send

end Disp

/-! ### Tracing layouts back -/

theorem AsksFor.append {calls : List DispCall} {i : ℕ} {layout : Layout}
    (h : AsksFor calls i layout) (call : DispCall) : AsksFor (calls ++ [call]) i layout := by
  obtain ⟨source, hsource, hlayout⟩ := h
  exact ⟨source, (List.getElem?_append_left (List.getElem?_eq_some_iff.1 hsource).1).trans hsource,
    hlayout⟩

theorem AsksFor.lt {calls : List DispCall} {i : ℕ} {layout : Layout} (h : AsksFor calls i layout) :
    i < calls.length := by
  obtain ⟨source, hsource, -⟩ := h
  exact (List.getElem?_eq_some_iff.1 hsource).1

theorem asksFor_concat (calls : List DispCall) {call : DispCall} {layout : Layout}
    (h : call.layout? = some layout) : AsksFor (calls ++ [call]) calls.length layout :=
  ⟨call, List.getElem?_concat_length, h⟩

/-- **The trace of a history**: each layout that was passed on has a source of its own, and what
waits in a slot has one that is not among them. -/
structure Traced (s : DispHistory) (sources : List ℕ) (parked stored : ℕ) : Prop where
  nodup : sources.Nodup
  passed : List.Forall₂ (ComesFrom s.calls) s.passed sources
  pending : s.module.pending = true →
    AsksFor s.calls parked s.module.pendingLayout ∧ parked ∉ sources
  initial : s.module.initialSet = true →
    AsksFor s.calls stored s.module.initialLayout ∧ stored ∉ sources
  distinct : s.module.pending = true → s.module.initialSet = true → parked ≠ stored
  old : ∀ i ∈ sources, i < s.calls.length

namespace Traced

variable {s : DispHistory} {sources : List ℕ} {parked stored : ℕ}

/-- The trace of what was passed on, behind another call. -/
theorem passed_append (h : Traced s sources parked stored) (call : DispCall) :
    List.Forall₂ (ComesFrom (s.calls ++ [call])) s.passed sources :=
  h.passed.imp fun _ _ hcomes ↦
    ⟨hcomes.1, hcomes.2.imp fun _ hasks ↦ ⟨hasks.1.append call, hasks.2⟩⟩

/-- A call that passes on nothing and puts nothing into a slot. -/
theorem kept (h : Traced s sources parked stored) (call : DispCall) {t : Disp}
    (ht : s.module.KeepsSlots t) :
    Traced { module := t, calls := s.calls ++ [call], passed := s.passed }
      sources parked stored where
  nodup := h.nodup
  passed := h.passed_append call
  pending := fun hpending ↦ by
    obtain ⟨hpending, hlayout⟩ := ht.pending hpending
    exact hlayout ▸ (h.pending hpending).imp_left (·.append call)
  initial := fun hinitial ↦ by
    obtain ⟨hinitial, hlayout⟩ := ht.initial hinitial
    exact hlayout ▸ (h.initial hinitial).imp_left (·.append call)
  distinct := fun hpending hinitial ↦ h.distinct (ht.pending hpending).1 (ht.initial hinitial).1
  old := fun i hi ↦ (h.old i hi).trans_le (by simp)

/-- A call that passes on a layout of a new source, and puts nothing into a slot. -/
theorem passes (h : Traced s sources parked stored) (call : DispCall) {t : Disp}
    (ht : s.module.KeepsSlots t) {layout : Layout} {i : ℕ}
    (hi : AsksFor (s.calls ++ [call]) i layout) (hnew : i ∉ sources)
    (hpending : t.pending = true → parked ≠ i) (hinitial : t.initialSet = true → stored ≠ i) :
    Traced
      { module := t
        calls := s.calls ++ [call]
        passed := s.passed ++ [(s.calls.length, layout.monitor)] }
      (sources ++ [i]) parked stored := by
  have hkept := h.kept call ht
  have hle : i ≤ s.calls.length := by
    have := hi.lt
    rw [List.length_append, List.length_singleton] at this
    omega
  constructor
  case nodup => exact List.nodup_append_comm.1 (List.nodup_cons.2 ⟨hnew, h.nodup⟩)
  case passed =>
    exact List.rel_append hkept.passed (.cons ⟨hle, layout, hi, rfl⟩ .nil)
  case pending =>
    intro ht'
    obtain ⟨hasks, hnot⟩ := hkept.pending ht'
    exact ⟨hasks, by simp [hnot, hpending ht']⟩
  case initial =>
    intro ht'
    obtain ⟨hasks, hnot⟩ := hkept.initial ht'
    exact ⟨hasks, by simp [hnot, hinitial ht']⟩
  case distinct => exact hkept.distinct
  case old =>
    intro j hj
    rcases List.mem_append.1 hj with hj | hj
    · exact hkept.old j hj
    · exact List.mem_singleton.1 hj ▸ hi.lt

/-- **Every call can be traced.** -/
theorem call (h : Traced s sources parked stored) (call : DispCall) :
    ∃ sources parked stored, Traced (s.call call) sources parked stored := by
  have hmoves := s.module.moves call
  rw [DispHistory.call]
  generalize s.module.passed call = passed at hmoves ⊢
  generalize (s.module.call call).2 = t at hmoves ⊢
  have hfresh : s.calls.length ∉ sources := fun hmem ↦ (h.old _ hmem).false
  cases hmoves with
  | kept ht =>
    refine ⟨sources, parked, stored, ?_⟩
    simpa using h.kept call ht
  | drained hpending ht' ht =>
    obtain ⟨hasks, hnot⟩ := h.pending hpending
    refine ⟨sources ++ [parked], parked, stored, h.passes call ht (hasks.append call) hnot ?_ ?_⟩
    · intro hpending'
      rw [ht'] at hpending'
      cases hpending'
    · exact fun hinitial ↦ (h.distinct hpending (ht.initial hinitial).1).symm
  | initial hinitial ht' ht =>
    obtain ⟨hasks, hnot⟩ := h.initial hinitial
    refine ⟨sources ++ [stored], parked, stored, h.passes call ht (hasks.append call) hnot ?_ ?_⟩
    · exact fun hpending ↦ h.distinct (ht.pending hpending).1 hinitial
    · intro hinitial'
      rw [ht'] at hinitial'
      cases hinitial'
  | sent hcall ht =>
    refine ⟨sources ++ [s.calls.length], parked, stored,
      h.passes call ht (asksFor_concat s.calls hcall) hfresh ?_ ?_⟩
    · exact fun hpending ↦ (h.pending (ht.pending hpending).1).1.lt.ne
    · exact fun hinitial ↦ (h.initial (ht.initial hinitial).1).1.lt.ne
  | parked hcall =>
    refine ⟨sources, s.calls.length, stored, ?_⟩
    have hkept := h.kept call (.refl s.module)
    simp only [Option.map_none, Option.toList_none, List.append_nil]
    exact ⟨hkept.nodup, hkept.passed, fun _ ↦ ⟨asksFor_concat s.calls hcall, hfresh⟩, hkept.initial,
      fun _ hinitial ↦ (h.initial hinitial).1.lt.ne', hkept.old⟩
  | stored hcall =>
    refine ⟨sources, parked, s.calls.length, ?_⟩
    have hkept := h.kept call (.refl s.module)
    simp only [Option.map_none, Option.toList_none, List.append_nil]
    exact ⟨hkept.nodup, hkept.passed, hkept.pending, fun _ ↦ ⟨asksFor_concat s.calls hcall, hfresh⟩,
      fun hpending _ ↦ (h.pending hpending).1.lt.ne, hkept.old⟩

end Traced

/-! ### Whole histories -/

theorem run_dispHistorySystem_calls {s t : DispHistory} {calls : List DispCall}
    (h : dispHistorySystem.run s calls = some t) : t.calls = s.calls ++ calls := by
  induction calls generalizing s with
  | nil =>
    obtain rfl := Option.some.inj h
    exact (List.append_nil _).symm
  | cons call calls ih => exact (ih h).trans (List.append_assoc _ _ _)

/-- **Every history can be traced.** -/
theorem exists_traced {calls : List DispCall} {s : DispHistory}
    (h : dispHistorySystem.run {} calls = some s) :
    ∃ sources parked stored, Traced s sources parked stored := by
  refine StepSystem.run_invariant
    (P := fun s ↦ ∃ sources parked stored, Traced s sources parked stored) ?_ ?_ h
  · rintro s call t ⟨sources, parked, stored, htraced⟩ hstep
    obtain rfl := Option.some.inj hstep
    exact htraced.call call
  · exact ⟨[], 0, 0, List.nodup_nil, .nil, nofun, nofun, nofun, nofun⟩

theorem isSide_of_comesFrom {calls : List DispCall} {passed : ℕ × MonitorLayout} {i : ℕ}
    (h : ComesFrom calls passed i) : IsSide passed.2.width ∧ IsSide passed.2.height := by
  obtain ⟨-, layout, ⟨call, -, hlayout⟩, heq⟩ := h
  rw [heq]
  cases call with
  | requestResize | setInitialLayout =>
    obtain rfl := Option.some.inj hlayout
    exact ⟨isSide_clampEven _, isSide_clampEven _⟩
  | channelConnected | channelDisconnected | caps | checkPending => cases hlayout

/-- A layout that comes from a request for clamped sides has these sides. -/
theorem sides_of_comesFrom {calls : List DispCall} {passed : ℕ × MonitorLayout} {i : ℕ}
    (h : ComesFrom calls passed i) {width height : ℕ} {nowMs : UInt64} {send : Send}
    (hcall : calls[i]? = some (.requestResize (Int32.ofInt (clampSize width))
      (Int32.ofInt (clampSize height)) 100 100 nowMs send)) :
    passed.2.width.toNat = clampSize width ∧ passed.2.height.toNat = clampSize height := by
  obtain ⟨-, layout, ⟨call, hcall', hlayout⟩, heq⟩ := h
  obtain rfl := Option.some.inj (hcall.symm.trans hcall')
  obtain rfl := Option.some.inj hlayout
  rw [heq]
  exact ⟨toNat_clampEven_clampSize width, toNat_clampEven_clampSize height⟩

/-- A request before the activation and one behind it, for an odd size. -/
def twoRequests : List DispCall :=
  [.requestResize 1366 768 100 100 10 ⟨true, 10⟩, .channelConnected, .caps ⟨true, 20⟩,
    .requestResize 1281 9000 100 100 500 ⟨false, 500⟩]

end RdpMcp
