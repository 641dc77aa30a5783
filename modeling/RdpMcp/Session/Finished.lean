import RdpMcp.Foundations.Fallible
import RdpMcp.Session.Calls
import RdpMcp.Session.FirstError

/-!
# A finished session stays finished

A session is finished once its error is set or it has been stopped, and no event undoes either:
there is no transition that clears an error or the `disconnected` flag (`SessionStep.finished`). A
finished state refuses every call that passes through `checkConnected`, so a call that starts on a
finished session fails no matter what arrives while it runs. Once stopped, the state does not change
at all (`SessionStep.eq_of_stopped`).

The preview is the exception in form only. It never waits for the state lock, so on a finished
session a frame request either fails or, when the lock happens to be taken, comes back empty.
-/

namespace RdpMcp

variable {fromSlice : List UInt8 → Option JsonValue} {s t : SessionState}

/-! ### Finished states refuse every call -/

/-- The gate refuses a finished session. -/
theorem SessionState.checkConnected_of_finished (h : s.finished = true) :
    ∃ e, s.checkConnected = .error e := by
  rw [SessionState.checkConnected]
  rcases herror : s.error with - | error
  · have hdead : s.disconnected = true := by simpa [SessionState.finished, herror] using h
    exact ⟨_, if_pos hdead⟩
  · exact ⟨_, rfl⟩

theorem SessionState.dimensions_of_finished (h : s.finished = true) :
    ∃ e, s.dimensions = .error e :=
  Fallible.exists_bind_eq_error (checkConnected_of_finished h) _

/-- A frame request on a finished session fails, or finds the lock taken and returns nothing. -/
theorem frame_of_finished (busy : Bool) (h : s.finished = true) :
    (busy = false → ∃ e, frame busy s = .error e) ∧ ∀ f, frame busy s ≠ .ok (some f) := by
  have hclosed : (s.disconnected || s.error.isSome) = true := by
    rwa [Bool.or_comm, ← SessionState.finished]
  cases busy with
  | false => simp [frame, hclosed]
  | true => simp [frame]

/-- A finished session is not waited for. -/
theorem waitForFrame_of_finished (h : s.finished = true) (wakes : List Wake) :
    waitForFrame s wakes = .ok s := by
  cases wakes <;> simp [waitForFrame, h]

theorem screenshot_of_finished {Encoded : Type} (encode : PreviewFrame → Except String Encoded)
    {view : ScreenshotView} (h : view.entry.finished = true) :
    ∃ e, screenshot encode view = .error e := by
  have hcapture : ∃ e, captureFrame view = .error e := by
    rw [captureFrame, waitForFrame_of_finished h]
    exact Fallible.exists_bind_eq_error (SessionState.checkConnected_of_finished h) _
  exact Fallible.exists_bind_eq_error hcapture _

theorem withSession_of_finished {α : Type} (id : String) {found : Option SessionState}
    (h : ∀ state ∈ found, state.finished = true) (operation : SessionState → Except String α) :
    ∃ e, withSession id found operation = .error e := by
  cases found with
  | none => exact ⟨_, rfl⟩
  | some state =>
    exact Fallible.exists_bind_eq_error (SessionState.checkConnected_of_finished (h state rfl)) _

theorem resize_of_finished (id : String) (width height : ℕ) {found : Option SessionState}
    (h : ∀ state ∈ found, state.finished = true) (command : Except String Unit)
    (entry : SessionState) (wakes : List Wake) :
    ∃ e, resize id width height found command entry wakes = .error e :=
  withSession_of_finished id h _

/-! ### Nothing revives a finished session -/

/-- An event after which the session is stopped. -/
def SessionEvent.stops : SessionEvent → Bool
  | .output kind _ _ => kind == msgDisconnected
  | .stop _ => true

/-- No transition leaves the finished states. -/
theorem SessionStep.finished {event : SessionEvent} (h : SessionStep fromSlice s event t)
    (hs : s.finished = true) : t.finished = true := by
  cases h with
  | stop | disconnected => simp [SessionState.finished, SessionState.stop]
  | rejected | failed => simp [SessionState.finished]
  | late | ready | resized | painted | ignored => simpa [SessionState.finished] using hs

/-- No transition takes a stop back. -/
theorem SessionStep.disconnected_mono {event : SessionEvent} (h : SessionStep fromSlice s event t)
    (hs : s.disconnected = true) : t.disconnected = true := by
  cases h with
  | stop | disconnected => rfl
  | late | ready | resized | rejected | painted | failed | ignored => exact hs

theorem SessionStep.disconnected_of_stops {event : SessionEvent}
    (h : SessionStep fromSlice s event t) (hstops : event.stops = true) :
    t.disconnected = true := by
  cases h with
  | stop | disconnected => rfl
  | late hdead => exact hdead
  | ready | rejected | painted | failed => cases hstops
  | resized hlive hkind => rcases hkind with rfl | rfl <;> cases hstops
  | ignored hlive hkind => exact absurd hstops (by simp [SessionEvent.stops, hkind.1])

/-- What comes from the worker stops the session exactly if it says DISCONNECTED. -/
theorem SessionStep.disconnected_iff {kind : UInt32} {partA partB : List UInt8}
    (h : SessionStep fromSlice s (.output kind partA partB) t) :
    t.disconnected = true ↔ s.disconnected = true ∨ kind = msgDisconnected := by
  cases h with
  | disconnected => exact iff_of_true rfl (.inr rfl)
  | late hdead => exact iff_of_true hdead (.inl hdead)
  | ready | rejected | painted | failed => exact (or_iff_left (by decide)).symm
  | resized hlive hkind =>
    refine (or_iff_left ?_).symm
    rcases hkind with rfl | rfl <;> decide
  | ignored hlive hkind => exact (or_iff_left hkind.1).symm

/-- Stopping a stopped session changes nothing. -/
theorem SessionState.stop_eq_self (hs : s.Valid) (hdead : s.disconnected = true)
    (error : Option String) : s.stop error = s := by
  obtain ⟨hconn, hframe, hfb⟩ := hs.disconnected hdead
  cases s
  simp_all [SessionState.stop]

/-- **A stopped session is frozen.** -/
theorem SessionStep.eq_of_stopped {event : SessionEvent} (h : SessionStep fromSlice s event t)
    (hs : s.Valid) (hdead : s.disconnected = true) : t = s := by
  cases h with
  | stop | disconnected => exact SessionState.stop_eq_self hs hdead _
  | late => rfl
  | ready _ _ hlive | resized hlive | rejected _ _ hlive | painted _ _ _ hlive | failed _ _ hlive
  | ignored hlive => exact absurd hdead (by simp [hlive])

/-- A run with a stop in it ends stopped. -/
theorem run_disconnected_of_stops {events : List SessionEvent} (hs : s.Valid)
    (hrun : (sessionSystem 64 fromSlice).run s events = some t)
    (hstops : s.disconnected = true ∨ ∃ event ∈ events, event.stops = true) :
    t.disconnected = true := by
  induction events generalizing s with
  | nil =>
    rw [StepSystem.run_nil, Option.some.injEq] at hrun
    simpa [hrun] using hstops
  | cons event events ih =>
    obtain ⟨u, hu, hrest⟩ := StepSystem.run_cons_eq_some_iff _ |>.1 hrun
    have hstep := sessionStep_of_step hs hu
    refine ih (step_valid hs hu) hrest ?_
    rcases hstops with hdead | ⟨event', hmem, hstop⟩
    · exact Or.inl (hstep.disconnected_mono hdead)
    · rcases List.mem_cons.1 hmem with rfl | hmem
      · exact Or.inl (hstep.disconnected_of_stops hstop)
      · exact Or.inr ⟨event', hmem, hstop⟩

/-- **A finished session cannot be revived.** Whatever happens after the error was set or the
session stopped, every call that starts then fails, except that a frame request finding the state
lock taken returns no frame. After a stop no event changes the state at all. -/
theorem finished_forever (fromSlice : List UInt8 → Option JsonValue)
    {before after : List SessionEvent}
    (hbefore : (sessionSystem 64 fromSlice).run {} before = some s)
    (hafter : (sessionSystem 64 fromSlice).run s after = some t)
    (hfinished : s.error.isSome = true ∨ ∃ event ∈ before, event.stops = true) :
    (∃ e, t.checkConnected = .error e) ∧ (∃ e, t.dimensions = .error e) ∧
      (∃ e, frame false t = .error e) ∧ frame true t = .ok none ∧
      (∀ (Encoded : Type) (encode : PreviewFrame → Except String Encoded) (view : ScreenshotView),
        view.entry = t → ∃ e, screenshot encode view = .error e) ∧
      (∀ (α : Type) (id : String) (found : Option SessionState)
        (operation : SessionState → Except String α), (∀ state ∈ found, state = t) →
        ∃ e, withSession id found operation = .error e) ∧
      (∀ (id : String) (width height : ℕ) (found : Option SessionState)
        (command : Except String Unit) (entry : SessionState) (wakes : List Wake),
        (∀ state ∈ found, state = t) →
        ∃ e, resize id width height found command entry wakes = .error e) ∧
      ((∃ event ∈ before, event.stops = true) → t = s) := by
  have hs := run_valid SessionState.valid_default hbefore
  have hstopped : (∃ event ∈ before, event.stops = true) → s.disconnected = true :=
    fun h ↦ run_disconnected_of_stops SessionState.valid_default hbefore (Or.inr h)
  have hsfin : s.finished = true := by
    rcases hfinished with herror | hstop
    · simp [SessionState.finished, herror]
    · simp [SessionState.finished, hstopped hstop]
  have hfin : t.finished = true :=
    (StepSystem.run_invariant (P := fun s ↦ s.Valid ∧ s.finished = true)
      (fun s event t hP hstep ↦
        ⟨step_valid hP.1 hstep, (sessionStep_of_step hP.1 hstep).finished hP.2⟩)
      ⟨hs, hsfin⟩ hafter).2
  refine ⟨SessionState.checkConnected_of_finished hfin, SessionState.dimensions_of_finished hfin,
    (frame_of_finished false hfin).1 rfl, rfl, fun _ encode view hview ↦ ?_,
    fun _ id found operation hfound ↦ ?_, fun id width height found command entry wakes hfound ↦ ?_,
    fun hstop ↦ ?_⟩
  · exact screenshot_of_finished encode (hview ▸ hfin)
  · exact withSession_of_finished id (fun state hstate ↦ hfound state hstate ▸ hfin) operation
  · exact resize_of_finished id width height (fun state hstate ↦ hfound state hstate ▸ hfin) command
      entry wakes
  · exact (StepSystem.run_relates (P := fun s ↦ s.Valid ∧ s.disconnected = true)
      (R := fun s t ↦ t = s) (fun _ ↦ rfl) (fun _ _ _ h h' ↦ h'.trans h)
      (fun s event t hP hstep ↦
        ⟨step_valid hP.1 hstep, (sessionStep_of_step hP.1 hstep).disconnected_mono hP.2⟩)
      (fun s event t hP hstep ↦ (sessionStep_of_step hP.1 hstep).eq_of_stopped hP.1 hP.2)
      ⟨hs, hstopped hstop⟩ hafter)

/-- A session that is closed while it connects, and the READY that arrives after all. -/
theorem finished_forever_close :
    ∃ t, (sessionSystem 64 fun _ ↦ none).run {} [.stop none, .output msgReady [] []] = some t ∧
      (∃ e, t.checkConnected = .error e) ∧ t.connected = false :=
  ⟨_, rfl, (finished_forever (fun _ ↦ none)
    (show (sessionSystem 64 fun _ ↦ none).run {} [.stop none] = some _ from rfl)
    (show (sessionSystem 64 fun _ ↦ none).run _ [.output msgReady [] []] = some _ from rfl)
    (Or.inr ⟨_, List.mem_singleton_self _, rfl⟩)).1, rfl⟩

/-- **A frame request does not fail while the lock is taken**, finished session or not. -/
theorem frame_after_stop :
    ∃ s, (sessionSystem 64 fun _ ↦ none).run {} [.stop none] = some s ∧ s.finished = true ∧
      frame true s = .ok none ∧ ¬∃ e, frame true s = .error e :=
  ⟨_, rfl, rfl, rfl, fun ⟨_, h⟩ ↦ nomatch h⟩

end RdpMcp
