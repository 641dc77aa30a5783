import RdpMcp.Foundations.Position
import RdpMcp.Native.Library

/-!
# What the native library has done

`LibraryEffect.Allowed` says what may happen when: an instance is made when no other is live, freed
once and when all its threads have been waited for, and only used in between; a thread is waited for
once, and reports the end of the connection at most once, before that.

What has been fits the globals (`Tracked`): the live instance is `g_instance`, and all event threads
but `g_event_thread` have ended and have been waited for. There is one lemma for each thing that can
be done, with what it needs, and one for the steps of an event thread, which need nothing.
-/

namespace RdpMcp

/-! ### What may happen when -/

/-- An instance has been made and not been freed. -/
def LiveIn (history : List LibraryEffect) (i : ℕ) : Prop :=
  .created i ∈ history ∧ .freed i ∉ history

/-- **What may happen behind a history.** An instance is made when no other is live, and freed when
it is live and all threads that use it have been waited for. A thread is started for a live
instance, when all threads before it have been waited for, and waited for once. Only a live instance
is used. A thread reports once that the connection is lost, and not any more when it has been waited
for. -/
def LibraryEffect.Allowed (history : List LibraryEffect) : LibraryEffect → Prop
  | created i => .created i ∉ history ∧ ∀ j, ¬LiveIn history j
  | freed i => LiveIn history i ∧ ∀ t, .started t (some i) ∈ history → .joined t ∈ history
  | started t freerdp =>
    (∃ i, freerdp = some i ∧ LiveIn history i) ∧
      ∀ u freerdp', .started u freerdp' ∈ history → u ≠ t ∧ .joined u ∈ history
  | joined t => .joined t ∉ history
  | checkedEvents freerdp => ∃ i, freerdp = some i ∧ LiveIn history i
  | input freerdp => ∃ i, freerdp = some i ∧ LiveIn history i
  | disconnected t => .disconnected t ∉ history ∧ .joined t ∉ history
  | error _ => True
  | returned _ _ => True

/-- The effect leaves instances and threads as they are. -/
def LibraryEffect.IsOther : LibraryEffect → Prop
  | checkedEvents _ | input _ | error _ | returned _ _ => True
  | _ => False

namespace Library

/-! ### What has been -/

/-- **What has been fits the globals.** -/
structure Tracked (s : Library) : Prop where
  allowed : EachAfter (fun history effect ↦ effect.Allowed history) s.history
  created : ∀ i, .created i ∈ s.history → i < s.instances
  live : ∀ i, LiveIn s.history i ↔ s.freerdp = some i
  current : ∀ t, s.eventThread = some t → .joined t ∉ s.history ∧ s.freerdp ≠ none ∧
    ∃ phase, s.threads[t]? = some ⟨s.freerdp, phase⟩
  past : ∀ t thread, s.threads[t]? = some thread → s.eventThread ≠ some t →
    thread.phase = .ended ∧ .joined t ∈ s.history
  started : ∀ t freerdp, .started t freerdp ∈ s.history → t < s.threads.length
  joined : ∀ t, .joined t ∈ s.history → t < s.threads.length
  disconnected : ∀ t, .disconnected t ∈ s.history →
    s.threads[t]?.map EventThread.phase = some .ended

variable {s t : Library} {effect : LibraryEffect}

/-- `Tracked` does not look at the other globals. -/
theorem Tracked.of_eq (h : s.Tracked) (hfreerdp : t.freerdp = s.freerdp)
    (hthread : t.eventThread = s.eventThread) (hinstances : t.instances = s.instances)
    (hthreads : t.threads = s.threads) (hhistory : t.history = s.history) : t.Tracked := by
  constructor
  · rw [hhistory]
    exact h.allowed
  · rw [hhistory, hinstances]
    exact h.created
  · rw [hhistory, hfreerdp]
    exact h.live
  · rw [hhistory, hthread, hfreerdp, hthreads]
    exact h.current
  · rw [hhistory, hthread, hthreads]
    exact h.past
  · rw [hhistory, hthreads]
    exact h.started
  · rw [hhistory, hthreads]
    exact h.joined
  · rw [hhistory, hthreads]
    exact h.disconnected

/-- An effect of another kind is not the one that is added. -/
theorem mem_concat_of_ne {history : List LibraryEffect} {e : LibraryEffect} (hne : e ≠ effect) :
    e ∈ history ++ [effect] ↔ e ∈ history := by
  rw [List.mem_append, List.mem_singleton, or_iff_left hne]

/-- What is neither about instances nor about threads. -/
theorem Tracked.emit_other (h : s.Tracked) (hother : effect.IsOther)
    (hallowed : effect.Allowed s.history) : (s.emit effect).Tracked := by
  have hmem (e : LibraryEffect) (he : ¬e.IsOther) :
      e ∈ s.history ++ [effect] ↔ e ∈ s.history :=
    mem_concat_of_ne fun heq ↦ he (heq ▸ hother)
  have hlive (i : ℕ) : LiveIn (s.history ++ [effect]) i ↔ LiveIn s.history i := by
    rw [LiveIn, LiveIn, hmem _ id, hmem _ id]
  refine ⟨eachAfter_concat.2 ⟨h.allowed, hallowed⟩, fun i hi ↦ ?_, fun i ↦ ?_, fun u hu ↦ ?_,
    fun u thread hu hne ↦ ?_, fun u freerdp hu ↦ ?_, fun u hu ↦ ?_, fun u hu ↦ ?_⟩
  · exact h.created i ((hmem _ id).1 hi)
  · exact (hlive i).trans (h.live i)
  · obtain ⟨hjoined, hcurrent⟩ := h.current u hu
    exact ⟨fun hmem' ↦ hjoined ((hmem _ id).1 hmem'), hcurrent⟩
  · obtain ⟨hended, hjoined⟩ := h.past u thread hu hne
    exact ⟨hended, (hmem _ id).2 hjoined⟩
  · exact h.started u freerdp ((hmem _ id).1 hu)
  · exact h.joined u ((hmem _ id).1 hu)
  · exact h.disconnected u ((hmem _ id).1 hu)

theorem mem_of_mem_concat {history : List LibraryEffect} {e : LibraryEffect}
    (h : e ∈ history ++ [effect]) (hne : e ≠ effect) : e ∈ history :=
  (mem_concat_of_ne hne).1 h

theorem liveIn_concat_of_ne {history : List LibraryEffect} {i : ℕ} (hcreated : .created i ≠ effect)
    (hfreed : .freed i ≠ effect) : LiveIn (history ++ [effect]) i ↔ LiveIn history i := by
  rw [LiveIn, LiveIn, mem_concat_of_ne hcreated, mem_concat_of_ne hfreed]

/-- Only what has been made has been freed. -/
theorem Tracked.created_of_freed (h : s.Tracked) {i : ℕ} (hfreed : .freed i ∈ s.history) :
    .created i ∈ s.history := by
  obtain ⟨pre, post, heq⟩ := List.append_of_mem hfreed
  have hallowed := h.allowed pre _ post heq
  rw [heq]
  exact List.mem_append_left _ hallowed.1.1

/-- Without `g_event_thread` all threads have been waited for. -/
theorem Tracked.joined_of_started (h : s.Tracked) (hthread : s.eventThread = none) {u : ℕ}
    {freerdp : Option ℕ} (hstarted : .started u freerdp ∈ s.history) : .joined u ∈ s.history := by
  have hlt := h.started u freerdp hstarted
  exact (h.past u _ (List.getElem?_eq_getElem hlt) (by rw [hthread]; exact nofun)).2

/-! ### The command thread and what has been -/

/-- The instance is freed when there is no event thread. -/
theorem Tracked.free (h : s.Tracked) {i : ℕ} (hfreerdp : s.freerdp = some i)
    (hthread : s.eventThread = none) : ({ s with freerdp := none }.emit (.freed i)).Tracked := by
  have hlive := (h.live i).2 hfreerdp
  refine ⟨eachAfter_concat.2 ⟨h.allowed, hlive, fun u hu ↦ h.joined_of_started hthread hu⟩,
    fun j hj ↦ ?_, fun j ↦ ?_, fun u hu ↦ ?_, fun u thread hu hne ↦ ?_, fun u freerdp hu ↦ ?_,
    fun u hu ↦ ?_, fun u hu ↦ ?_⟩
  · exact h.created j (mem_of_mem_concat hj nofun)
  · -- it was the only one that was live
    refine iff_of_false (fun hlive' ↦ ?_) nofun
    have hj : LiveIn s.history j :=
      ⟨mem_of_mem_concat hlive'.1 nofun, fun hmem ↦ hlive'.2 (List.mem_append_left _ hmem)⟩
    obtain rfl := Option.some.inj (((h.live j).1 hj).symm.trans hfreerdp)
    exact hlive'.2 (List.mem_append_right _ (List.mem_singleton_self _))
  · cases hthread.symm.trans hu
  · obtain ⟨hended, hjoined⟩ := h.past u thread hu hne
    exact ⟨hended, List.mem_append_left _ hjoined⟩
  · exact h.started u freerdp (mem_of_mem_concat hu nofun)
  · exact h.joined u (mem_of_mem_concat hu nofun)
  · exact h.disconnected u (mem_of_mem_concat hu nofun)

/-- An instance is made when there is none. -/
theorem Tracked.create (h : s.Tracked) (hfreerdp : s.freerdp = none)
    (hthread : s.eventThread = none) :
    ({ s with
      freerdp := some s.instances
      instances := s.instances + 1 }.emit (.created s.instances)).Tracked := by
  have hnew : .created s.instances ∉ s.history := fun hmem ↦ Nat.lt_irrefl _ (h.created _ hmem)
  have hdead (j : ℕ) : ¬LiveIn s.history j := fun hlive ↦ by
    cases hfreerdp.symm.trans ((h.live j).1 hlive)
  refine ⟨eachAfter_concat.2 ⟨h.allowed, hnew, hdead⟩,
    fun j hj ↦ ?_, fun j ↦ ?_, fun u hu ↦ ?_, fun u thread hu hne ↦ ?_, fun u freerdp hu ↦ ?_,
    fun u hu ↦ ?_, fun u hu ↦ ?_⟩
  · rcases List.mem_append.1 hj with hold | hj
    · exact Nat.lt_succ_of_lt (h.created j hold)
    · cases List.mem_singleton.1 hj
      exact Nat.lt_succ_self _
  · show LiveIn (s.history ++ [.created s.instances]) j ↔ some s.instances = some j
    constructor
    · rintro ⟨hcreated, hfreed⟩
      rcases List.mem_append.1 hcreated with hold | hj
      · exact absurd ⟨hold, fun hmem ↦ hfreed (List.mem_append_left _ hmem)⟩ (hdead j)
      · cases List.mem_singleton.1 hj
        rfl
    · intro heq
      obtain rfl := Option.some.inj heq
      refine ⟨List.mem_append_right _ (List.mem_singleton_self _), fun hfreed ↦ hnew ?_⟩
      exact h.created_of_freed (mem_of_mem_concat hfreed nofun)
  · cases hthread.symm.trans hu
  · obtain ⟨hended, hjoined⟩ := h.past u thread hu hne
    exact ⟨hended, List.mem_append_left _ hjoined⟩
  · exact h.started u freerdp (mem_of_mem_concat hu nofun)
  · exact h.joined u (mem_of_mem_concat hu nofun)
  · exact h.disconnected u (mem_of_mem_concat hu nofun)

/-- A thread is started for the instance when there is none. -/
theorem Tracked.start (h : s.Tracked) {i : ℕ} (hfreerdp : s.freerdp = some i)
    (hthread : s.eventThread = none) :
    ({ s with
      eventThread := some s.threads.length
      threads := s.threads ++ [EventThread.mk s.freerdp .running] }.emit
        (.started s.threads.length s.freerdp)).Tracked := by
  have hlength : (s.threads ++ [EventThread.mk s.freerdp .running]).length = s.threads.length + 1 :=
    List.length_append
  have hold {u : ℕ} (hlt : u < s.threads.length) :
      (s.threads ++ [EventThread.mk s.freerdp .running])[u]? = s.threads[u]? :=
    List.getElem?_append_left hlt
  have hlive := (h.live i).2 hfreerdp
  refine ⟨eachAfter_concat.2 ⟨h.allowed, ⟨i, hfreerdp, hlive⟩, fun u freerdp hu ↦ ?_⟩,
    fun j hj ↦ ?_, fun j ↦ ?_, fun u hu ↦ ?_, fun u thread hu hne ↦ ?_, fun u freerdp hu ↦ ?_,
    fun u hu ↦ ?_, fun u hu ↦ ?_⟩
  · exact ⟨Nat.ne_of_lt (h.started u freerdp hu), h.joined_of_started hthread hu⟩
  · exact h.created j (mem_of_mem_concat hj nofun)
  · exact (liveIn_concat_of_ne (by simp) (by simp)).trans (h.live j)
  · obtain rfl := Option.some.inj hu
    refine ⟨fun hjoined ↦ ?_, by rw [hfreerdp]; exact nofun, .running, ?_⟩
    · exact Nat.lt_irrefl _ (h.joined _ (mem_of_mem_concat hjoined nofun))
    · exact List.getElem?_concat_length
  · have hne' : u ≠ s.threads.length := fun heq ↦ hne (congrArg some heq.symm)
    have hlt := hlength ▸ (List.getElem?_eq_some_iff.1 hu).1
    obtain ⟨hended, hjoined⟩ :=
      h.past u thread ((hold (by omega)).symm.trans hu) (by rw [hthread]; exact nofun)
    exact ⟨hended, List.mem_append_left _ hjoined⟩
  · rcases List.mem_append.1 hu with hu | hu
    · exact hlength ▸ Nat.lt_succ_of_lt (h.started u freerdp hu)
    · cases List.mem_singleton.1 hu
      exact hlength ▸ Nat.lt_succ_self _
  · exact hlength ▸ Nat.lt_succ_of_lt (h.joined u (mem_of_mem_concat hu nofun))
  · have hended := h.disconnected u (mem_of_mem_concat hu nofun)
    obtain ⟨thread, hu', -⟩ := Option.map_eq_some_iff.1 hended
    exact (congrArg _ (hold (List.getElem?_eq_some_iff.1 hu').1)).trans hended

/-- The event thread has ended and is waited for. -/
theorem Tracked.join (h : s.Tracked) {u : ℕ} (hthread : s.eventThread = some u)
    (hended : s.threads[u]?.map EventThread.phase = some .ended) :
    ({ s with eventThread := none }.emit (.joined u)).Tracked := by
  obtain ⟨hjoined, -, -⟩ := h.current u hthread
  refine ⟨eachAfter_concat.2 ⟨h.allowed, hjoined⟩, fun j hj ↦ ?_, fun j ↦ ?_, nofun,
    fun v thread hv _ ↦ ?_, fun v freerdp hv ↦ ?_, fun v hv ↦ ?_, fun v hv ↦ ?_⟩
  · exact h.created j (mem_of_mem_concat hj nofun)
  · exact (liveIn_concat_of_ne (by simp) (by simp)).trans (h.live j)
  · by_cases heq : s.eventThread = some v
    · obtain rfl := Option.some.inj (hthread.symm.trans heq)
      have hphase := hended
      rw [show s.threads[u]? = some thread from hv] at hphase
      exact ⟨Option.some.inj hphase, List.mem_append_right _ (List.mem_singleton_self _)⟩
    · obtain ⟨hended, hjoined⟩ := h.past v thread hv heq
      exact ⟨hended, List.mem_append_left _ hjoined⟩
  · exact h.started v freerdp (mem_of_mem_concat hv nofun)
  · rcases List.mem_append.1 hv with hold | hnew
    · exact h.joined v hold
    · cases List.mem_singleton.1 hnew
      obtain ⟨thread, hu, -⟩ := Option.map_eq_some_iff.1 hended
      exact (List.getElem?_eq_some_iff.1 hu).1
  · exact h.disconnected v (mem_of_mem_concat hv nofun)

/-! ### The event thread and what has been -/

/-- A thread that has not ended is `g_event_thread`. -/
theorem Tracked.eventThread_eq (h : s.Tracked) {u : ℕ} {thread : EventThread}
    (hthread : s.threads[u]? = some thread) (hphase : thread.phase ≠ .ended) :
    s.eventThread = some u := by
  by_contra hne
  exact hphase (h.past u thread hthread hne).1

/-- The instance of a thread that has not ended is live. -/
theorem Tracked.live_of_thread (h : s.Tracked) {u : ℕ} {thread : EventThread}
    (hthread : s.threads[u]? = some thread) (hphase : thread.phase ≠ .ended) :
    ∃ i, thread.freerdp = some i ∧ LiveIn s.history i := by
  obtain ⟨-, hfreerdp, phase, hcurrent⟩ := h.current u (h.eventThread_eq hthread hphase)
  obtain ⟨i, hi⟩ := Option.ne_none_iff_exists'.1 hfreerdp
  obtain rfl := Option.some.inj (hthread.symm.trans hcurrent)
  exact ⟨i, hi, (h.live i).2 hi⟩

/-- A thread that has not ended goes on. -/
theorem Tracked.setPhase (h : s.Tracked) {u : ℕ} {thread : EventThread}
    (hthread : s.threads[u]? = some thread) (hphase : thread.phase ≠ .ended) (phase : ThreadPhase) :
    (s.setPhase u thread phase).Tracked := by
  have heventThread := h.eventThread_eq hthread hphase
  obtain ⟨hjoined, hfreerdp, old, hold⟩ := h.current u heventThread
  obtain ⟨hlt, -⟩ := List.getElem?_eq_some_iff.1 hthread
  have hsame : thread.freerdp = s.freerdp := by
    rw [Option.some.inj (hthread.symm.trans hold)]
  have hlength : (s.threads.set u { thread with phase }).length = s.threads.length :=
    List.length_set
  refine ⟨h.allowed, h.created, h.live, fun v hv ↦ ?_, fun v other hv hne ↦ ?_,
    fun v freerdp hv ↦ ?_, fun v hv ↦ ?_, fun v hv ↦ ?_⟩
  · -- the thread keeps its instance
    obtain rfl := Option.some.inj (heventThread.symm.trans hv)
    refine ⟨hjoined, hfreerdp, phase, ?_⟩
    show (s.threads.set u { thread with phase })[u]? = some ⟨s.freerdp, phase⟩
    rw [List.getElem?_set_self hlt, hsame]
  · have hne' : u ≠ v := fun heq ↦ hne (heq ▸ heventThread)
    exact h.past v other ((List.getElem?_set_ne hne').symm.trans hv) hne
  · exact hlength ▸ h.started v freerdp hv
  · exact hlength ▸ h.joined v hv
  · have hended := h.disconnected v hv
    have hne : u ≠ v := by
      rintro rfl
      rw [hthread] at hended
      exact hphase (Option.some.inj hended)
    exact (congrArg _ (List.getElem?_set_ne hne)).trans hended

/-- A thread that has ended has reported that the connection is lost. -/
theorem Tracked.disconnect (h : s.Tracked) {u : ℕ}
    (hended : s.threads[u]?.map EventThread.phase = some .ended)
    (hdisconnected : .disconnected u ∉ s.history) (hjoined : .joined u ∉ s.history) :
    (s.emit (.disconnected u)).Tracked := by
  refine ⟨eachAfter_concat.2 ⟨h.allowed, hdisconnected, hjoined⟩, fun j hj ↦ ?_, fun j ↦ ?_,
    fun v hv ↦ ?_, fun v thread hv hne ↦ ?_, fun v freerdp hv ↦ ?_, fun v hv ↦ ?_, fun v hv ↦ ?_⟩
  · exact h.created j (mem_of_mem_concat hj nofun)
  · exact (liveIn_concat_of_ne (by simp) (by simp)).trans (h.live j)
  · obtain ⟨hjoined, hcurrent⟩ := h.current v hv
    exact ⟨fun hmem ↦ hjoined (mem_of_mem_concat hmem nofun), hcurrent⟩
  · obtain ⟨hended, hjoined⟩ := h.past v thread hv hne
    exact ⟨hended, List.mem_append_left _ hjoined⟩
  · exact h.started v freerdp (mem_of_mem_concat hv nofun)
  · exact h.joined v (mem_of_mem_concat hv nofun)
  · rcases List.mem_append.1 hv with hold | hnew
    · exact h.disconnected v hold
    · cases List.mem_singleton.1 hnew
      exact hended

/-- **One step of an event thread.** Only the one that `g_event_thread` names takes one. -/
theorem Tracked.threadStep (h : s.Tracked) {u : ℕ} {ok : Bool}
    (hstep : s.threadStep u ok = some t) :
    t.Tracked ∧ s.eventThread = some u := by
  rw [Library.threadStep] at hstep
  split at hstep
  · cases hstep
  · next thread hthread =>
    have hphase : thread.phase ≠ .ended := by
      intro hended
      rw [hended] at hstep
      cases hstep
    have heventThread := h.eventThread_eq hthread hphase
    have hset (phase : ThreadPhase) := h.setPhase hthread hphase phase
    split at hstep
    · obtain rfl := Option.some.inj hstep
      exact ⟨hset _, heventThread⟩
    · obtain rfl := Option.some.inj hstep
      exact ⟨hset _, heventThread⟩
    · obtain rfl := Option.some.inj hstep
      obtain ⟨i, hthreadInstance, hlive⟩ := h.live_of_thread hthread hphase
      have hallowed : (LibraryEffect.checkedEvents thread.freerdp).Allowed s.history :=
        ⟨i, hthreadInstance, hlive⟩
      exact ⟨(hset _).emit_other trivial hallowed, heventThread⟩
    · obtain rfl := Option.some.inj hstep
      exact ⟨(hset .behind).of_eq rfl rfl rfl rfl rfl, heventThread⟩
    · obtain rfl := Option.some.inj hstep
      exact ⟨hset _, heventThread⟩
    · obtain rfl := Option.some.inj hstep
      -- it has not ended, so it has not reported anything
      have hnew : .disconnected u ∉ s.history := fun hmem ↦ by
        have hended := h.disconnected u hmem
        rw [hthread] at hended
        exact hphase (Option.some.inj hended)
      have hended : (s.setPhase u thread .ended).threads[u]?.map EventThread.phase = some .ended :=
        congrArg _ (List.getElem?_set_self (List.getElem?_eq_some_iff.1 hthread).1)
      have hjoined := (h.current u heventThread).1
      exact ⟨(hset .ended).disconnect hended hnew hjoined, heventThread⟩
    · cases hstep

end Library

end RdpMcp
