import RdpMcp.Manager.Lifecycle

/-!
# No worker is left behind

A session that is out of the registry, with no call under way for it, has an empty slot, a worker
that was shut down if there ever was one, and a stopped state (`no_leaked_worker`), however the
calls interleaved.

The invariant is about **one connection at a time** (`Connection.Sound`): whoever takes it out of
the registry begins a shutdown, and each thing a shutdown has to find is either there already or
still to be done by a shutdown that has not come past it. The delicate case is the hand-over. An
open call that has seen a running session under the slot lock will store its worker even if the
session is stopped meanwhile; but then the shutdown that stopped it still has to take the worker,
and cannot before the lock is free.

Ids come from a `u64` counter, so all of this is for the first `2 ^ 64` sessions. After that a new
session may get the id of a live one and push it out of the registry (`ids_wrap`).
-/

namespace RdpMcp

/-! ### One connection -/

namespace Connection

/-- **The invariant of a connection**, given whether it is in the registry. -/
structure Sound (registered : Prop) (c : Connection) : Prop where
  /-- An open call that has not come to the registry is not in it. -/
  inserted : registered → c.opener ≠ .created
  /-- Out of the registry it is stopped, or about to be. -/
  stopped : ¬registered → c.opener ≠ .created →
    c.callback.disconnected = true ∨ .stopping ∈ c.shutdowns
  /-- Out of the registry a worker in the slot is about to be taken. -/
  taken : ¬registered → c.slot = true → .stopping ∈ c.shutdowns ∨ .taking ∈ c.shutdowns
  /-- So is a worker that is about to be put there. -/
  handedOver : ¬registered → c.opener = .checked false →
    .stopping ∈ c.shutdowns ∨ .taking ∈ c.shutdowns
  /-- Somebody looks after a running worker. -/
  held : c.worker = .up →
    c.slot = true ∨ c.opener.holdsWorker = true ∨ .closing ∈ c.shutdowns

variable {registered registered' : Prop} {c d : Connection}

theorem mem_set_of_ne {phase old : ShutdownPhase} {phases : List ShutdownPhase} {k : ℕ}
    (h : phase ∈ phases) (hk : phases[k]? = some old) (hne : phase ≠ old) (new : ShutdownPhase) :
    phase ∈ phases.set k new := by
  obtain ⟨i, hi⟩ := List.mem_iff_getElem?.1 h
  have hik : k ≠ i := by
    rintro rfl
    exact hne (Option.some.inj (hi.symm.trans hk))
  exact List.mem_iff_getElem?.2 ⟨i, (List.getElem?_set_ne hik).trans hi⟩

theorem mem_eraseIdx_of_ne {phase old : ShutdownPhase} {phases : List ShutdownPhase} {k : ℕ}
    (h : phase ∈ phases) (hk : phases[k]? = some old) (hne : phase ≠ old) :
    phase ∈ phases.eraseIdx k := by
  obtain ⟨i, hi⟩ := List.mem_iff_getElem?.1 h
  have hik : i ≠ k := by
    rintro rfl
    exact hne (Option.some.inj (hi.symm.trans hk))
  exact List.mem_eraseIdx_iff_getElem?.2 ⟨i, hik, hi⟩

theorem mem_set_self {old : ShutdownPhase} {phases : List ShutdownPhase} {k : ℕ}
    (hk : phases[k]? = some old) (new : ShutdownPhase) : new ∈ phases.set k new := by
  obtain ⟨hlt, -⟩ := List.getElem?_eq_some_iff.1 hk
  exact List.mem_set hlt new

/-- A new session. -/
theorem sound_new (id : String) : Sound False { id } :=
  ⟨False.elim, fun _ h ↦ absurd rfl h, nofun, nofun, nofun⟩

/-- **A connection that leaves the registry with a shutdown stays sound**, and one that begins
another shutdown does. -/
theorem Sound.beginShutdown (h : c.Sound registered) (hreg : registered' → registered) :
    c.beginShutdown.Sound registered' := by
  have hnew : ShutdownPhase.stopping ∈ c.beginShutdown.shutdowns :=
    List.mem_append_right _ (List.mem_singleton_self _)
  refine ⟨fun hr ↦ h.inserted (hreg hr), fun _ _ ↦ .inr hnew, fun _ _ ↦ .inl hnew,
    fun _ _ ↦ .inl hnew, fun hup ↦ ?_⟩
  exact (h.held hup).imp_right (Or.imp_right (List.mem_append_left _))

/-- If the open call has no worker to look after, a shutdown takes care of a running one. -/
theorem Sound.held_elsewhere (h : c.Sound registered) (hnone : c.opener.holdsWorker = false)
    (hup : c.worker = .up) : c.slot = true ∨ .closing ∈ c.shutdowns := by
  simpa [hnone] using h.held hup

/-- The open call moves on and keeps the worker, or had none to look after. -/
theorem Sound.moveOn (h : c.Sound registered) {phase : OpenPhase} (hopener : c.opener ≠ .created)
    (hphase : phase ≠ .created)
    (hholds : phase.holdsWorker = true ∨ c.opener.holdsWorker = false)
    (hhanded : ¬registered → phase = .checked false →
      .stopping ∈ c.shutdowns ∨ .taking ∈ c.shutdowns) :
    Sound registered { c with opener := phase } := by
  refine ⟨fun _ ↦ hphase, fun hr _ ↦ h.stopped hr hopener, h.taken, hhanded, fun hup ↦ ?_⟩
  rcases hholds with hholds | hnone
  · exact .inr (.inl hholds)
  · exact (h.held_elsewhere hnone hup).imp_right .inr

/-- An open call fails and leaves the session to a shutdown. -/
theorem Sound.fail (h : c.Sound registered) (hnone : c.opener.holdsWorker = false) :
    Sound registered' { c.beginShutdown with opener := .ended false } := by
  have hnew : ShutdownPhase.stopping ∈ c.beginShutdown.shutdowns :=
    List.mem_append_right _ (List.mem_singleton_self _)
  refine ⟨fun _ ↦ nofun, fun _ _ ↦ .inr hnew, fun _ _ ↦ .inl hnew, nofun, fun hup ↦ ?_⟩
  exact (h.held_elsewhere hnone hup).imp_right fun hclosing ↦ .inr (List.mem_append_left _ hclosing)

/-- A session comes into the registry. -/
theorem Sound.insert (h : c.Sound registered) (hnone : c.opener.holdsWorker = false)
    (hr : registered') : Sound registered' { c with opener := .inserted } :=
  ⟨fun _ ↦ nofun, absurd hr, absurd hr, absurd hr,
    fun hup ↦ (h.held_elsewhere hnone hup).imp_right .inr⟩

/-- **`Session::connect` keeps the invariant.** -/
theorem Sound.openStep (h : c.Sound registered) {outcome : Bool}
    (hstep : c.openStep outcome = some d) : d.Sound registered := by
  rw [Connection.openStep] at hstep
  split at hstep
  case h_1 hopener =>
    have hne : c.opener ≠ .created := by simp [hopener]
    cases outcome with
    | true =>
      cases hstep
      exact ⟨fun _ ↦ nofun, fun hr _ ↦ h.stopped hr hne, h.taken, nofun, fun _ ↦ .inr (.inl rfl)⟩
    | false =>
      cases hstep
      exact h.moveOn hne nofun (.inr (by rw [hopener]; rfl)) nofun
  case h_2 hopener =>
    cases hstep
    exact h.moveOn (by simp [hopener]) nofun (.inl rfl) nofun
  case h_3 hopener =>
    cases hstep
    refine h.moveOn (by simp [hopener]) nofun (.inl rfl) fun hr hrunning ↦ .inl ?_
    -- a session that is still running has a shutdown that has not come to stop it
    have hrunning : c.callback.disconnected = false := OpenPhase.checked.inj hrunning
    exact (h.stopped hr (by simp [hopener])).resolve_left (by simp [hrunning])
  case h_4 hopener =>
    cases hstep
    exact h.moveOn (by simp [hopener]) nofun (.inl rfl) nofun
  case h_5 hopener =>
    cases hstep
    exact ⟨fun _ ↦ nofun, fun hr _ ↦ h.stopped hr (by simp [hopener]),
      fun hr _ ↦ h.handedOver hr hopener, nofun, fun _ ↦ .inl rfl⟩
  case h_6 hopener =>
    cases hstep
    exact ⟨fun _ ↦ nofun, fun hr _ ↦ h.stopped hr (by simp [hopener]), h.taken, nofun, nofun⟩
  case h_7 hopener =>
    cases hstep
    cases outcome with
    | true => exact h.moveOn (by simp [hopener]) nofun (.inr (by rw [hopener]; rfl)) nofun
    | false => exact h.moveOn (by simp [hopener]) nofun (.inr (by rw [hopener]; rfl)) nofun
  case h_8 hopener =>
    split at hstep
    · cases hstep
      exact h.moveOn (by simp [hopener]) nofun (.inr (by rw [hopener]; rfl)) nofun
    · cases hstep
      exact h.moveOn (by simp [hopener]) nofun (.inr (by rw [hopener]; rfl)) nofun
  case h_9 => cases hstep

/-- **`Session::shutdown` keeps the invariant**: what it leaves behind, it has done. -/
theorem Sound.shutdownStep (h : c.Sound registered) {k : ℕ}
    (hstep : c.shutdownStep k = some d) : d.Sound registered := by
  rw [Connection.shutdownStep] at hstep
  split at hstep
  case h_1 hk =>
    cases hstep
    have htaking := mem_set_self hk .taking
    have hkeep (hmem : .closing ∈ c.shutdowns) : .closing ∈ c.shutdowns.set k .taking :=
      mem_set_of_ne hmem hk nofun _
    exact ⟨h.inserted, fun _ _ ↦ .inl rfl, fun _ _ ↦ .inr htaking, fun _ _ ↦ .inr htaking,
      fun hup ↦ (h.held hup).imp_right (Or.imp_right hkeep)⟩
  case h_2 hk =>
    split_ifs at hstep with hlock hslot
    · cases hstep
      have hclosing := mem_set_self hk .closing
      have hkeep (hmem : .stopping ∈ c.shutdowns) : .stopping ∈ c.shutdowns.set k .closing :=
        mem_set_of_ne hmem hk nofun _
      refine ⟨h.inserted, fun hr hopener ↦ ?_, nofun, fun _ hchecked ↦ ?_,
        fun _ ↦ .inr (.inr hclosing)⟩
      · exact (h.stopped hr hopener).imp_right hkeep
      · rw [show c.opener = .checked false from hchecked] at hlock
        exact absurd rfl hlock
    · cases hstep
      refine ⟨h.inserted, fun hr hopener ↦ ?_, fun _ hfull ↦ absurd hfull hslot,
        fun _ hchecked ↦ ?_, fun hup ↦ ?_⟩
      · exact (h.stopped hr hopener).imp_right fun hmem ↦ mem_eraseIdx_of_ne hmem hk nofun
      · rw [show c.opener = .checked false from hchecked] at hlock
        exact absurd rfl hlock
      · exact (h.held hup).imp_right (Or.imp_right fun hmem ↦ mem_eraseIdx_of_ne hmem hk nofun)
  case h_3 hk =>
    cases hstep
    have hkeep {phase : ShutdownPhase} (hmem : phase ∈ c.shutdowns) (hne : phase ≠ .closing) :
        phase ∈ c.shutdowns.eraseIdx k := mem_eraseIdx_of_ne hmem hk hne
    refine ⟨h.inserted, fun hr hopener ↦ (h.stopped hr hopener).imp_right fun hmem ↦
        hkeep hmem nofun, fun hr hslot ↦ ?_, fun hr hchecked ↦ ?_, nofun⟩
    · exact (h.taken hr hslot).imp (hkeep · nofun) (hkeep · nofun)
    · exact (h.handedOver hr hchecked).imp (hkeep · nofun) (hkeep · nofun)
  case h_4 => cases hstep

/-- A worker's report keeps the invariant. -/
theorem Sound.output (h : c.Sound registered) {callback : SessionState}
    (hfollows : c.callback.Follows callback) : Sound registered { c with callback } :=
  ⟨h.inserted, fun hr hopener ↦ (h.stopped hr hopener).imp_left hfollows.disconnected, h.taken,
    h.handedOver, h.held⟩

/-- **What the invariant is for**: a connection that is out of the registry and that nobody is busy
with is all cleaned up. -/
theorem Sound.cleaned (h : c.Sound registered) (hr : ¬registered) {ok : Bool}
    (hopener : c.opener = .ended ok) (hidle : c.shutdowns = []) :
    c.slot = false ∧ c.worker ≠ .up ∧ c.callback.disconnected = true := by
  have hslot : c.slot = false := by
    rcases hfull : c.slot with - | -
    · rfl
    · simpa [hidle] using h.taken hr hfull
  refine ⟨hslot, fun hup ↦ ?_, ?_⟩
  · simpa [hslot, hidle, hopener, OpenPhase.holdsWorker] using h.held hup
  · simpa [hidle] using h.stopped hr (by simp [hopener])

end Connection

/-! ### One step -/

/-- The session an action is about. The manager's shutdown is about all of them. -/
def ManagerAction.Concerns (s : ManagerState) (j : ℕ) : ManagerAction → Prop
  | .new => j = s.created
  | .openCall i _ => j = i
  | .shutdownSession i _ => j = i
  | .output i _ _ _ => j = i
  | .close id => (s.connections j).id = id
  | .shutdown => True
  | .drop i => j = i

/-- **What an action does to the registry and the connections.** -/
inductive ManagerStep (s : ManagerState) : ManagerAction → ManagerState → Prop
  | new : ManagerStep s .new s.new
  /-- Something happens to one connection, outside the registry. -/
  | connection {action : ManagerAction} {i : ℕ} {d : Connection} (hi : i < s.created)
      (hconcerns : action.Concerns s i) (hid : d.id = (s.connections i).id)
      (hsound : ∀ registered, (s.connections i).Sound registered → d.Sound registered)
      (hopener : d.opener = (s.connections i).opener ∨
        ((s.connections i).opener ≠ .created ∧ ∀ ok, (s.connections i).opener ≠ .ended ok)) :
      ManagerStep s action (s.setConnection i d)
  /-- An open call finds the registry closed. -/
  | refused {i : ℕ} {outcome : Bool} (hi : i < s.created)
      (hopener : (s.connections i).opener = .created) (hclosed : s.closed = true) :
      ManagerStep s (.openCall i outcome)
        (s.setConnection i { (s.connections i).beginShutdown with opener := .ended false })
  | inserted {i : ℕ} {outcome : Bool} (hi : i < s.created)
      (hopener : (s.connections i).opener = .created) (hclosed : s.closed = false) :
      ManagerStep s (.openCall i outcome) ((s.insert (s.connections i).id i).setConnection i
        { s.connections i with opener := .inserted })
  /-- A failed open call takes its session out. -/
  | removed {i : ℕ} {outcome : Bool} (hi : i < s.created)
      (hopener : (s.connections i).opener = .failing) :
      ManagerStep s (.openCall i outcome) ((s.remove (s.connections i).id).setConnection i
        { (s.connections i).beginShutdown with opener := .ended false })
  /-- A close finds a session. -/
  | closed {id : String} {i : ℕ} (hfound : (id, i) ∈ s.sessions) :
      ManagerStep s (.close id) ((s.remove id).setConnection i (s.connections i).beginShutdown)
  /-- A close finds none. -/
  | notFound {id : String} : ManagerStep s (.close id) s
  | shutdown : ManagerStep s .shutdown s.shutdownCall

/-- A step of `Session::connect` does not touch an open call that is not connecting. -/
theorem Connection.opener_of_openStep {c d : Connection} {outcome : Bool}
    (h : c.openStep outcome = some d) :
    d.id = c.id ∧ c.opener ≠ .created ∧ ∀ ok, c.opener ≠ .ended ok := by
  rw [Connection.openStep] at h
  split at h
  case h_8 hopener =>
    split at h <;> cases h <;> exact ⟨rfl, by simp [hopener], by simp [hopener]⟩
  case h_9 => cases h
  all_goals
    rename_i hopener
    cases h
    exact ⟨by first | rfl | split <;> rfl, by simp [hopener], by simp [hopener]⟩

theorem Connection.opener_of_shutdownStep {c d : Connection} {k : ℕ}
    (h : c.shutdownStep k = some d) : d.id = c.id ∧ d.opener = c.opener := by
  rw [Connection.shutdownStep] at h
  split at h
  · cases h
    exact ⟨rfl, rfl⟩
  · split_ifs at h <;> cases h <;> exact ⟨rfl, rfl⟩
  · cases h
    exact ⟨rfl, rfl⟩
  · cases h

theorem connection?_eq_some {s : ManagerState} {i : ℕ} {c : Connection}
    (h : s.connection? i = some c) : i < s.created ∧ c = s.connections i := by
  rw [ManagerState.connection?] at h
  split at h
  · exact ⟨‹_›, (Option.some.inj h).symm⟩
  · cases h

theorem mem_of_lookup {sessions : List (String × ℕ)} {id : String} {i : ℕ}
    (h : sessions.lookup id = some i) : (id, i) ∈ sessions := by
  induction sessions with
  | nil => cases h
  | cons entry sessions ih =>
    rw [List.lookup_cons] at h
    split at h
    case h_1 heq =>
      obtain rfl : id = entry.1 := by simpa using heq
      cases h
      exact List.mem_cons_self
    case h_2 => exact List.mem_cons_of_mem _ (ih h)

section

variable {bits : ℕ} {fromSlice : List UInt8 → Option JsonValue} {s t : ManagerState}
  {action : ManagerAction}

theorem managerStep_of_step
    (h : (managerSystem bits fromSlice).step s action = some t) : ManagerStep s action t := by
  cases action with
  | new =>
    cases h
    exact .new
  | openCall i outcome =>
    obtain ⟨c, hc, h⟩ := Option.bind_eq_some_iff.1 h
    obtain ⟨hi, rfl⟩ := connection?_eq_some hc
    rw [ManagerState.openCall] at h
    split at h
    case h_1 hopener =>
      split at h
      case isTrue hclosed =>
        cases h
        exact .refused hi hopener hclosed
      case isFalse hclosed =>
        cases h
        exact .inserted hi hopener (by simpa using hclosed)
    case h_2 hopener =>
      cases h
      exact .removed hi hopener
    case h_3 =>
      obtain ⟨d, hd, rfl⟩ := Option.map_eq_some_iff.1 h
      obtain ⟨hid, hopener⟩ := Connection.opener_of_openStep hd
      exact .connection hi rfl hid (fun _ hsound ↦ hsound.openStep hd) (.inr hopener)
  | shutdownSession i k =>
    obtain ⟨c, hc, h⟩ := Option.bind_eq_some_iff.1 h
    obtain ⟨hi, rfl⟩ := connection?_eq_some hc
    obtain ⟨d, hd, rfl⟩ := Option.map_eq_some_iff.1 h
    obtain ⟨hid, hopener⟩ := Connection.opener_of_shutdownStep hd
    exact .connection hi rfl hid (fun _ hsound ↦ hsound.shutdownStep hd) (.inl hopener)
  | output i kind partA partB =>
    obtain ⟨c, hc, h⟩ := Option.bind_eq_some_iff.1 h
    obtain ⟨hi, rfl⟩ := connection?_eq_some hc
    split at h
    · cases h
    · obtain ⟨callback, hcallback, rfl⟩ := Option.map_eq_some_iff.1 h
      exact .connection hi rfl rfl
        (fun _ hsound ↦ hsound.output (follows_of_handleNativeOutput hcallback).1) (.inl rfl)
  | close id =>
    cases h
    rw [ManagerState.closeCall]
    split
    case h_1 i hfound => exact .closed (mem_of_lookup hfound)
    case h_2 => exact .notFound
  | shutdown =>
    cases h
    exact .shutdown
  | drop i =>
    obtain ⟨c, hc, h⟩ := Option.bind_eq_some_iff.1 h
    obtain ⟨hi, rfl⟩ := connection?_eq_some hc
    split at h
    · split at h
      · cases h
      · cases h
        exact .connection hi rfl rfl (fun _ hsound ↦ hsound.beginShutdown id) (.inl rfl)
    · cases h

/-! ### Ids -/

theorem connectionId_injective : Function.Injective connectionId := by
  intro m n h
  have hdigits : toString m.toNat = toString n.toNat := String.append_right_inj _ |>.1 h
  rw [Nat.toString_eq_ofList_toDigits, Nat.toString_eq_ofList_toDigits] at hdigits
  have htoDigits := String.ofList_injective hdigits
  have hnat := congrArg (Nat.ofDigitChars 10 · 0) htoDigits
  exact UInt64.toNat_inj.1 (by simpa using hnat)

/-- The counter numbers `2 ^ 64` sessions differently. -/
theorem number_inj {i j : ℕ} (hi : i < 18446744073709551616) (hj : j < 18446744073709551616)
    (h : UInt64.ofNat (i + 1) = UInt64.ofNat (j + 1)) : i = j := by
  have h := congrArg UInt64.toNat h
  rw [UInt64.toNat_ofNat', UInt64.toNat_ofNat'] at h
  omega

/-- The bookkeeping of the manager, whatever the calls do. -/
structure ManagerState.Numbered (s : ManagerState) : Prop where
  nextId : s.nextId = UInt64.ofNat (s.created + 1)
  ids : ∀ i < s.created, (s.connections i).id = connectionId (UInt64.ofNat (i + 1))
  entries : ∀ id i, (id, i) ∈ s.sessions → i < s.created ∧ id = (s.connections i).id
  closed : s.closed = true → s.sessions = []

theorem numbered_initial : ManagerState.Numbered {} :=
  ⟨rfl, nofun, nofun, nofun⟩

/-- Ids are distinct as long as the counter has not come round. -/
theorem ManagerState.Numbered.id_inj (h : s.Numbered) (hcount : s.created ≤ 18446744073709551616)
    {i j : ℕ} (hi : i < s.created) (hj : j < s.created)
    (hid : (s.connections i).id = (s.connections j).id) : i = j := by
  rw [h.ids i hi, h.ids j hj] at hid
  exact number_inj (hi.trans_le hcount) (hj.trans_le hcount) (connectionId_injective hid)

/-- Changing a connection, but not its id, keeps the books. -/
theorem ManagerState.Numbered.setConnection (h : s.Numbered) {i : ℕ} {d : Connection}
    (hid : d.id = (s.connections i).id) : (s.setConnection i d).Numbered := by
  have hids : ∀ j, ((s.setConnection i d).connections j).id = (s.connections j).id := by
    intro j
    rcases eq_or_ne j i with rfl | hne
    · rw [s.setConnection_self, hid]
    · rw [s.setConnection_of_ne hne]
  exact ⟨h.nextId, fun j hj ↦ (hids j).trans (h.ids j hj),
    fun id j hj ↦ (h.entries id j hj).imp_right fun hj ↦ hj.trans (hids j).symm, h.closed⟩

/-- **Every step keeps the books.** -/
theorem ManagerStep.numbered (hstep : ManagerStep s action t) (h : s.Numbered) : t.Numbered := by
  cases hstep with
  | new =>
    refine ⟨?_, fun i hi ↦ ?_, fun id i hi ↦ ?_, h.closed⟩
    · show s.nextId + 1 = UInt64.ofNat (s.created + 1 + 1)
      rw [h.nextId, UInt64.ofNat_add (s.created + 1) 1]
      rfl
    · rcases Nat.lt_succ_iff_lt_or_eq.1 hi with hi | rfl
      · rw [s.new_connections_of_lt hi]
        exact h.ids i hi
      · rw [s.new_connections_self, h.nextId]
    · obtain ⟨hlt, hid⟩ := h.entries id i hi
      exact ⟨hlt.trans (Nat.lt_succ_self _), by rw [s.new_connections_of_lt hlt]; exact hid⟩
  | connection hi hconcerns hid => exact h.setConnection hid
  | refused hi hopener hclosed => exact h.setConnection rfl
  | @inserted i _ hi hopener hclosed =>
    refine ManagerState.Numbered.setConnection (s := s.insert (s.connections i).id i)
      ⟨h.nextId, h.ids, fun id j hj ↦ ?_, fun hc ↦ ?_⟩ rfl
    · rcases List.mem_cons.1 hj with heq | hj
      · obtain ⟨rfl, rfl⟩ := Prod.mk.inj heq
        exact ⟨hi, rfl⟩
      · exact h.entries id j (List.mem_filter.1 hj).1
    · exact absurd (show s.closed = true from hc) (by simp [hclosed])
  | @removed i _ hi hopener =>
    refine ManagerState.Numbered.setConnection (s := s.remove (s.connections i).id)
      ⟨h.nextId, h.ids, fun id j hj ↦ ?_, fun hclosed ↦ ?_⟩ rfl
    · exact h.entries id j (List.mem_filter.1 hj).1
    · rw [ManagerState.remove, h.closed hclosed, List.filter_nil]
  | @closed id i hfound =>
    refine ManagerState.Numbered.setConnection (s := s.remove id)
      ⟨h.nextId, h.ids, fun id j hj ↦ ?_, fun hclosed ↦ ?_⟩ rfl
    · exact h.entries id j (List.mem_filter.1 hj).1
    · rw [ManagerState.remove, h.closed hclosed, List.filter_nil]
  | notFound => exact h
  | shutdown =>
    refine ⟨h.nextId, fun i hi ↦ ?_, nofun, fun _ ↦ rfl⟩
    rcases s.shutdownCall_connections i with ⟨-, heq⟩ | ⟨-, heq⟩
    · rw [heq]
      exact h.ids i hi
    · rw [heq]
      exact h.ids i hi

/-! ### The registry -/

/-- **Removing an id removes one session**, as long as ids are distinct. -/
theorem mem_remove_iff (h : s.Numbered) (hcount : s.created ≤ 18446744073709551616) {i : ℕ}
    (hi : i < s.created) (id : String) (j : ℕ) :
    (id, j) ∈ (s.remove (s.connections i).id).sessions ↔ (id, j) ∈ s.sessions ∧ j ≠ i := by
  rw [ManagerState.remove, List.mem_filter]
  refine and_congr_right fun hmem ↦ ?_
  obtain ⟨hj, rfl⟩ := h.entries id j hmem
  have hid : (s.connections j).id = (s.connections i).id ↔ j = i :=
    ⟨h.id_inj hcount hj hi, fun heq ↦ heq ▸ rfl⟩
  simp [hid]

theorem registered_iff {j : ℕ} : s.Registered j ↔ ∃ id, (id, j) ∈ s.sessions := by
  simp [ManagerState.Registered]

theorem registered_remove_iff (h : s.Numbered) (hcount : s.created ≤ 18446744073709551616) {i : ℕ}
    (hi : i < s.created) (j : ℕ) :
    (s.remove (s.connections i).id).Registered j ↔ s.Registered j ∧ j ≠ i := by
  simp only [registered_iff, mem_remove_iff h hcount hi, exists_and_right]

theorem registered_insert_iff (h : s.Numbered) (hcount : s.created ≤ 18446744073709551616) {i : ℕ}
    (hi : i < s.created) (j : ℕ) :
    (s.insert (s.connections i).id i).Registered j ↔ j = i ∨ s.Registered j := by
  have hremove := registered_remove_iff h hcount hi j
  have hcons : (s.insert (s.connections i).id i).Registered j ↔
      j = i ∨ (s.remove (s.connections i).id).Registered j := List.mem_cons
  rw [hcons, hremove]
  tauto

/-- Every connection meets its invariant. -/
def ManagerState.Sound (s : ManagerState) : Prop :=
  ∀ i < s.created, (s.connections i).Sound (s.Registered i)

/-- A step at one connection keeps the others sound, if they stay in the registry or out of it. -/
theorem ManagerState.Sound.setConnection (h : s.Sound) {i : ℕ} {d : Connection}
    (hcreated : t.created = s.created) (hconnections : t.connections = s.connections)
    (hothers : ∀ j, j ≠ i → (t.Registered j ↔ s.Registered j))
    (hd : i < s.created → d.Sound (t.Registered i)) : (t.setConnection i d).Sound := by
  intro j hj
  replace hj : j < s.created := hcreated ▸ hj
  rcases eq_or_ne j i with rfl | hne
  · rw [t.setConnection_self]
    exact hd hj
  · rw [t.setConnection_of_ne hne, hconnections]
    exact propext (hothers j hne) ▸ h j hj

/-- **Every step keeps all connections sound.** -/
theorem ManagerStep.sound (hstep : ManagerStep s action t) (hbooks : s.Numbered)
    (hcount : s.created ≤ 18446744073709551616) (h : s.Sound) : t.Sound := by
  cases hstep with
  | new =>
    intro i hi
    rcases Nat.lt_succ_iff_lt_or_eq.1 hi with hi | rfl
    · rw [s.new_connections_of_lt hi]
      exact h i hi
    · rw [s.new_connections_self]
      have hout : ¬s.new.Registered s.created := by
        rintro hmem
        obtain ⟨⟨id, i⟩, hentry, rfl⟩ := List.mem_map.1 hmem
        exact absurd (hbooks.entries _ _ hentry).1 (Nat.lt_irrefl _)
      exact propext (iff_false_intro hout) ▸ Connection.sound_new _
  | connection hi hconcerns hid hsound =>
    exact h.setConnection rfl rfl (fun _ _ ↦ Iff.rfl) fun hi ↦ hsound _ (h _ hi)
  | refused hi hopener hclosed =>
    exact h.setConnection rfl rfl (fun _ _ ↦ Iff.rfl) fun hi ↦
      (h _ hi).fail (by rw [hopener]; rfl)
  | @inserted i _ hi hopener hclosed =>
    have hreg := registered_insert_iff hbooks hcount hi
    exact h.setConnection rfl rfl (fun j hne ↦ (hreg j).trans (or_iff_right hne)) fun _ ↦
      (h i hi).insert (by rw [hopener]; rfl) ((hreg i).2 (.inl rfl))
  | @removed i _ hi hopener =>
    have hreg := registered_remove_iff hbooks hcount hi
    exact h.setConnection rfl rfl (fun j hne ↦ (hreg j).trans (and_iff_left hne)) fun _ ↦
      (h i hi).fail (by rw [hopener]; rfl)
  | @closed id i hfound =>
    obtain ⟨hi, rfl⟩ := hbooks.entries id i hfound
    have hreg := registered_remove_iff hbooks hcount hi
    exact h.setConnection rfl rfl (fun j hne ↦ (hreg j).trans (and_iff_left hne)) fun _ ↦
      (h i hi).beginShutdown fun hr ↦ ((hreg i).1 hr).1
  | notFound => exact h
  | shutdown =>
    intro i hi
    have hout : ¬s.shutdownCall.Registered i := List.not_mem_nil
    rcases s.shutdownCall_connections i with ⟨hreg, heq⟩ | ⟨-, heq⟩
    · rw [heq]
      exact propext (iff_of_false hreg hout) ▸ h i hi
    · rw [heq]
      exact (h i hi).beginShutdown fun hin ↦ absurd hin hout

/-! ### After the drain -/

/-- The manager has drained its registry: nothing comes into the registry again, and the open calls
that are `late`, which had not come to it by then, have failed if they went on. -/
structure Drained (late : ℕ → Prop) (s : ManagerState) : Prop where
  closed : s.closed = true
  sessions : s.sessions = []
  failed : ∀ i, late i → i < s.created →
    (s.connections i).opener = .created ∨ (s.connections i).opener = .ended false

/-- One connection changes, and its open call was not late or goes on failing. -/
theorem Drained.setConnection {late : ℕ → Prop} {i : ℕ} {d : Connection} (h : Drained late s)
    (hd : late i → i < s.created → d.opener = .created ∨ d.opener = .ended false) :
    Drained late (s.setConnection i d) := by
  refine ⟨h.closed, h.sessions, fun j hlate hj ↦ ?_⟩
  rcases eq_or_ne j i with rfl | hne
  · rw [s.setConnection_self]
    exact hd hlate hj
  · rw [s.setConnection_of_ne hne]
    exact h.failed j hlate hj

/-- **Once drained, always drained.** -/
theorem ManagerStep.drained {late : ℕ → Prop} (hstep : ManagerStep s action t)
    (h : Drained late s) :
    Drained late t := by
  cases hstep with
  | new =>
    refine ⟨h.closed, h.sessions, fun i hlate hi ↦ ?_⟩
    rcases Nat.lt_succ_iff_lt_or_eq.1 hi with hi | rfl
    · rw [s.new_connections_of_lt hi]
      exact h.failed i hlate hi
    · rw [s.new_connections_self]
      exact .inl rfl
  | connection hi hconcerns hid hsound hopener =>
    refine h.setConnection fun hlate hi ↦ ?_
    rcases hopener with hsame | ⟨hcreated, hended⟩
    · rw [hsame]
      exact h.failed _ hlate hi
    · rcases h.failed _ hlate hi with hopener | hopener
      · exact absurd hopener hcreated
      · exact absurd hopener (hended false)
  | refused => exact h.setConnection fun _ _ ↦ .inr rfl
  | inserted hi hopener hclosed => exact absurd h.closed (by simp [hclosed])
  | @removed i _ hi hopener =>
    have hdrained : Drained late (s.remove (s.connections i).id) :=
      ⟨h.closed, by rw [ManagerState.remove, h.sessions, List.filter_nil], h.failed⟩
    exact hdrained.setConnection fun _ _ ↦ .inr rfl
  | closed hfound => exact absurd hfound (by simp [h.sessions])
  | notFound => exact h
  | shutdown =>
    refine ⟨rfl, rfl, fun i hlate hi ↦ ?_⟩
    rcases s.shutdownCall_connections i with ⟨-, heq⟩ | ⟨-, heq⟩
    · rw [heq]
      exact h.failed i hlate hi
    · rw [heq]
      exact h.failed i hlate hi

/-! ### Other connections -/

/-- A session is neither moved into the registry, nor out of it, nor changed. -/
def Spares (s t : ManagerState) (j : ℕ) : Prop :=
  (∀ id, (id, j) ∈ t.sessions ↔ (id, j) ∈ s.sessions) ∧ t.connections j = s.connections j

theorem spares_setConnection {i j : ℕ} (hne : j ≠ i) (d : Connection) :
    Spares s (s.setConnection i d) j :=
  ⟨fun _ ↦ Iff.rfl, s.setConnection_of_ne hne d⟩

theorem spares_remove (h : s.Numbered) (hcount : s.created ≤ 18446744073709551616) {i j : ℕ}
    (hi : i < s.created) (hne : j ≠ i) (d : Connection) :
    Spares s ((s.remove (s.connections i).id).setConnection i d) j :=
  ⟨fun id ↦ (mem_remove_iff h hcount hi id j).trans (and_iff_left hne),
    (s.remove (s.connections i).id).setConnection_of_ne hne d⟩

/-- **A step spares every session it is not about.** -/
theorem ManagerStep.spares (hstep : ManagerStep s action t) (h : s.Numbered)
    (hcount : s.created ≤ 18446744073709551616) {j : ℕ} (hj : ¬action.Concerns s j) :
    Spares s t j := by
  cases hstep with
  | new => exact ⟨fun _ ↦ Iff.rfl, Function.update_of_ne hj _ _⟩
  | connection hi hconcerns =>
    refine spares_setConnection ?_ _
    rintro rfl
    exact hj hconcerns
  | refused => exact spares_setConnection hj _
  | @inserted i _ hi =>
    refine ⟨fun id ↦ ?_, ManagerState.setConnection_of_ne _ hj _⟩
    have hcons : (id, j) ∈ (s.insert (s.connections i).id i).sessions ↔
        (id, j) = ((s.connections i).id, i) ∨
          (id, j) ∈ (s.remove (s.connections i).id).sessions := List.mem_cons
    have hother : (id, j) ≠ ((s.connections i).id, i) := fun heq ↦ hj (Prod.mk.inj heq).2
    exact hcons.trans ((or_iff_right hother).trans
      ((mem_remove_iff h hcount hi id j).trans (and_iff_left hj)))
  | removed hi => exact spares_remove h hcount hi hj _
  | @closed id i hfound =>
    obtain ⟨hi, rfl⟩ := h.entries id i hfound
    exact spares_remove h hcount hi (fun heq ↦ hj (heq ▸ rfl)) _
  | notFound => exact ⟨fun _ ↦ Iff.rfl, rfl⟩
  | shutdown => exact absurd trivial hj

/-! ### Runs -/

theorem ManagerStep.created_le (hstep : ManagerStep s action t) : s.created ≤ t.created := by
  cases hstep with
  | new => exact Nat.le_succ _
  | connection | refused | inserted | removed | closed | notFound | shutdown => exact le_rfl

theorem run_numbered {actions : List ManagerAction} (h : s.Numbered)
    (hrun : (managerSystem bits fromSlice).run s actions = some t) : t.Numbered :=
  StepSystem.run_invariant (fun _ _ _ h hstep ↦ (managerStep_of_step hstep).numbered h) h hrun

theorem run_sound {actions : List ManagerAction} (hbooks : s.Numbered) (h : s.Sound)
    (hrun : (managerSystem bits fromSlice).run s actions = some t)
    (hcount : t.created ≤ 18446744073709551616) : t.Sound := by
  -- the count only grows, so a bound at the end is a bound all along
  have hinv : t.Numbered ∧ (t.created ≤ 18446744073709551616 → t.Sound) := by
    refine StepSystem.run_invariant
      (P := fun s ↦ s.Numbered ∧ (s.created ≤ 18446744073709551616 → s.Sound))
      (fun s action t ⟨hbooks, h⟩ hstep ↦ ?_) ⟨hbooks, fun _ ↦ h⟩ hrun
    have hstep := managerStep_of_step hstep
    refine ⟨hstep.numbered hbooks, fun hcount ↦ ?_⟩
    have hbefore := hstep.created_le.trans hcount
    exact hstep.sound hbooks hbefore (h hbefore)
  exact hinv.2 hcount

/-- **No worker is left behind, and no session haunts the registry.** In every state of every run:

* no two sessions have the same id;
* if the manager has drained its registry, the registry stays empty, and every open call that had
  not come to the registry by then has failed if it goes on at all;
* no action touches a session it is not about, in the registry or out of it;
* a session that is out of the registry, with no call under way for it, has an empty slot, no worker
  that was not shut down, and a stopped state.

All but the second need the ids to be distinct, which they are for the first `2 ^ 64` sessions. -/
theorem no_leaked_worker (bits : ℕ) (fromSlice : List UInt8 → Option JsonValue)
    {actions : List ManagerAction}
    (hrun : (managerSystem bits fromSlice).run {} actions = some s) :
    (s.created ≤ 18446744073709551616 → ∀ i j, i < s.created → j < s.created →
        (s.connections i).id = (s.connections j).id → i = j) ∧
      (s.closed = true → ∀ after t, (managerSystem bits fromSlice).run s after = some t →
        t.sessions = [] ∧ ∀ i, s.created ≤ i ∨ (s.connections i).opener = .created →
          i < t.created →
          (t.connections i).opener = .created ∨ (t.connections i).opener = .ended false) ∧
      (s.created ≤ 18446744073709551616 → ∀ action t j,
        (managerSystem bits fromSlice).step s action = some t → ¬action.Concerns s j →
        Spares s t j) ∧
      (s.created ≤ 18446744073709551616 → ∀ i, i < s.created → ¬s.Registered i → ∀ ok,
        (s.connections i).opener = .ended ok → (s.connections i).shutdowns = [] →
        (s.connections i).slot = false ∧ (s.connections i).worker ≠ .up ∧
          (s.connections i).callback.disconnected = true) := by
  have hbooks := run_numbered numbered_initial hrun
  refine ⟨fun hcount i j ↦ hbooks.id_inj hcount, fun hclosed after t hafter ↦ ?_,
    fun hcount action t j hstep ↦ (managerStep_of_step hstep).spares hbooks hcount,
    fun hcount i hi hout ok ↦ ?_⟩
  · have hdrained : Drained (fun i ↦ s.created ≤ i ∨ (s.connections i).opener = .created) s := by
      refine ⟨hclosed, hbooks.closed hclosed, ?_⟩
      rintro i (hlate | hopener) hi
      · exact absurd hi (Nat.not_lt.2 hlate)
      · exact .inl hopener
    have hdrained := StepSystem.run_invariant
      (fun _ _ _ h hstep ↦ (managerStep_of_step hstep).drained h) hdrained hafter
    exact ⟨hdrained.sessions, hdrained.failed⟩
  · have hsound := run_sound numbered_initial (fun _ hi ↦ absurd hi (Nat.not_lt_zero _)) hrun hcount
    exact (hsound i hi).cleaned hout

/-- One connection is opened and closed while a second open call begins. -/
def openAndClose : List ManagerAction :=
  [.new, .openCall 0 true, .openCall 0 true, .openCall 0 true, .openCall 0 true, .new,
    .openCall 0 true, .openCall 0 true, .output 0 msgReady [] [], .openCall 0 true,
    .close "rdp_1", .shutdownSession 0 0, .shutdownSession 0 0, .shutdownSession 0 0]

theorem no_leaked_worker_openAndClose :
    ∃ s, (managerSystem 64 fun _ ↦ none).run {} openAndClose = some s ∧
      ¬s.Registered 0 ∧ (s.connections 0).worker = .down ∧ (s.connections 0).slot = false ∧
        (s.connections 0).callback.disconnected = true := by
  have hrun : ∃ s, (managerSystem 64 fun _ ↦ none).run {} openAndClose = some s ∧
      s.created ≤ 18446744073709551616 ∧ 0 < s.created ∧ ¬s.Registered 0 ∧
      (s.connections 0).opener = .ended true ∧ (s.connections 0).shutdowns = [] ∧
      (s.connections 0).worker = .down :=
    ⟨_, rfl, by decide, by decide, by decide, rfl, rfl, rfl⟩
  obtain ⟨s, hrun, hcount, hcreated, hout, hopener, hidle, hdown⟩ := hrun
  obtain ⟨-, -, -, hclean⟩ := no_leaked_worker 64 (fun _ ↦ none) hrun
  obtain ⟨hslot, -, hstopped⟩ := hclean hcount 0 hcreated hout true hopener hidle
  exact ⟨s, hrun, hout, hdown, hslot, hstopped⟩

/-! ### The counter comes round -/

theorem run_new (bits : ℕ) (fromSlice : List UInt8 → Option JsonValue) (n : ℕ)
    (s : ManagerState) :
    ∃ t, (managerSystem bits fromSlice).run s (List.replicate n .new) = some t ∧
      t.created = s.created + n := by
  induction n generalizing s with
  | zero => exact ⟨s, rfl, rfl⟩
  | succ n ih =>
    obtain ⟨t, hrun, hcreated⟩ := ih s.new
    refine ⟨t, ?_, hcreated.trans (Nat.succ_add_eq_add_succ _ _)⟩
    rw [List.replicate_succ]
    exact StepSystem.run_cons_eq_some_iff _ |>.2 ⟨s.new, rfl, hrun⟩

end

/-- **After `2 ^ 64` sessions the ids repeat**: the first and the last of so many open calls that
have just begun have the same one. -/
theorem ids_wrap :
    ∃ s,
      (managerSystem 64 fun _ ↦ none).run {} (List.replicate 18446744073709551617 .new) = some s ∧
      0 < s.created ∧ 18446744073709551616 < s.created ∧
      (s.connections 0).id = (s.connections 18446744073709551616).id := by
  obtain ⟨s, hrun, hcreated⟩ := run_new 64 (fun _ ↦ none) 18446744073709551617 {}
  have hcreated : s.created = 18446744073709551617 := hcreated.trans (Nat.zero_add _)
  have hbooks := run_numbered numbered_initial hrun
  refine ⟨s, hrun, by omega, by omega, ?_⟩
  rw [hbooks.ids 0 (by omega), hbooks.ids 18446744073709551616 (by omega)]
  exact congrArg connectionId rfl

end RdpMcp
