import RdpMcp.Session.Version

/-!
# Which error a session reports

A session should report the first thing that went wrong. `SessionState.stop` is written for that: it
keeps an error that is already there. The two other places that write the error are not.
`Overwrites` is the exact condition under which one event replaces an error: the session has not
been stopped, and an ERROR message with a different text, or a bitmap of the wrong size, arrives.

A failed connect is such a run. The native layer reports the cause it got from the protocol library,
and the worker's command loop follows up with a generic message about the return code
(`connectFailure_loses_first_error`).
-/

namespace RdpMcp

section

variable (fromSlice : List UInt8 → Option JsonValue)

/-- The event replaces the session's error by a different one. -/
def Overwrites (s : SessionState) : SessionEvent → Prop
  | .output kind partA partB =>
    s.disconnected = false ∧
      ((kind = msgError ∧ s.error ≠ some (errorMessage fromSlice partA)) ∨
        (kind = msgBitmapUpdate ∧ s.Missized partA partB ∧ s.error ≠ some invalidBitmap))
  | .stop _ => False

/-- Between any two points of this run, an error set at the first is the error at the second. -/
def KeepsFirstError (events : List SessionEvent) : Prop :=
  ∀ before between rest s t error, events = before ++ between ++ rest →
    (sessionSystem 64 fromSlice).run {} before = some s →
    (sessionSystem 64 fromSlice).run s between = some t → s.error = some error →
    t.error = some error

variable {fromSlice} {s t : SessionState} {event : SessionEvent}

/-- **One step**: a set error survives an event exactly when the event does not overwrite it. -/
theorem SessionStep.error_eq_iff (h : SessionStep fromSlice s event t) {error : String}
    (hs : s.error = some error) : t.error = some error ↔ ¬Overwrites fromSlice s event := by
  cases h with
  | stop cause => simp [SessionState.stop, Overwrites, hs]
  | disconnected partA partB =>
    simp [SessionState.stop, Overwrites, hs, show msgDisconnected ≠ msgError by decide,
      show msgDisconnected ≠ msgBitmapUpdate by decide]
  | late hdead hkind => simp [Overwrites, hs, hdead]
  | ready =>
    simp [Overwrites, hs, show msgReady ≠ msgError by decide,
      show msgReady ≠ msgBitmapUpdate by decide]
  | resized hlive hkind hrange =>
    rcases hkind with rfl | rfl <;>
      simp [Overwrites, hs, show msgConnected ≠ msgError by decide,
        show msgConnected ≠ msgBitmapUpdate by decide, show msgResized ≠ msgError by decide,
        show msgResized ≠ msgBitmapUpdate by decide]
  | rejected header pixels hlive hsize =>
    simp [Overwrites, hs, hlive, hsize, show msgBitmapUpdate ≠ msgError by decide, eq_comm]
  | painted header pixels fb hlive hdesk hsize =>
    simp [Overwrites, hs, hsize, show msgBitmapUpdate ≠ msgError by decide]
  | failed partA partB hlive =>
    simp [Overwrites, hs, hlive, show msgError ≠ msgBitmapUpdate by decide, eq_comm]
  | ignored hlive hkind hsize =>
    simp only [hs, Overwrites, true_iff]
    rintro ⟨-, ⟨herror, -⟩ | ⟨hbitmap, hmissized, -⟩⟩
    · exact hkind.2.2 herror
    · exact hsize hbitmap hmissized

end

/-- **The first error is the one reported, exactly in the runs in which no event overwrites it**:
the run keeps its first error if and only if, at every state with an error that it reaches, the next
event is not an overwriting one. -/
theorem keepsFirstError_iff (fromSlice : List UInt8 → Option JsonValue)
    (events : List SessionEvent) :
    KeepsFirstError fromSlice events ↔
      (sessionSystem 64 fromSlice).StepsMeet
        (fun s event ↦ s.error.isSome = true → ¬Overwrites fromSlice s event) {} events := by
  constructor
  · intro hkeeps
    refine StepSystem.stepsMeet_iff.2 fun before event after s hevents hrun hsome ↦ ?_
    obtain ⟨error, herror⟩ := Option.isSome_iff_exists.1 hsome
    obtain ⟨t, ht, hstep⟩ :=
      exists_sessionStep fromSlice (run_valid SessionState.valid_default hrun) event
    -- a stretch of one event is enough to see the replacement
    refine (hstep.error_eq_iff herror).1 (hkeeps before [event] after s t error ?_ hrun ?_ herror)
    · rw [hevents, List.append_assoc, List.singleton_append]
    · rw [StepSystem.run_cons, ht, Option.bind_some, StepSystem.run_nil]
  · intro hmeet before between rest s t error hevents hrun hrun' herror
    rw [hevents, List.append_assoc] at hmeet
    have hmeet' := (hmeet.append_right hrun).append_left
    refine (StepSystem.run_invariant_of_stepsMeet
      (P := fun s ↦ s.Valid ∧ s.error = some error) (fun s event t hP hC hstep ↦ ?_)
      ⟨run_valid SessionState.valid_default hrun, herror⟩ hmeet' hrun').2
    refine ⟨step_valid hP.1 hstep, (sessionStep_of_step hP.1 hstep).error_eq_iff hP.2 |>.2 ?_⟩
    exact hC (by rw [hP.2]; rfl)

/-! ### A failed connect -/

/-- What the native layer reports when the connection fails. -/
def nativeReason : List UInt8 :=
  utf8 "\x7b\"message\":\"Connection failed\"\x7d"

/-- What the worker's command loop reports about the same failure. -/
def genericReason : List UInt8 :=
  utf8 "\x7b\"message\":\"native command failed with code -4\"\x7d"

/-- A parser that knows these two payloads. -/
def reasonParser (payload : List UInt8) : Option JsonValue :=
  if payload = nativeReason then some (.object [("message", .string "Connection failed")])
  else if payload = genericReason then
    some (.object [("message", .string "native command failed with code -4")])
  else none

/-- The events of a failed connect, in the order they are sent. -/
def connectFailure : List SessionEvent :=
  [.output msgError nativeReason [], .output msgError genericReason []]

/-- **A failed connect loses its cause**: the native reason is set first and the generic text is
what remains. -/
theorem connectFailure_loses_first_error :
    (sessionSystem 64 reasonParser).run {} (connectFailure.take 1) =
        some { error := some "Connection failed" } ∧
      (sessionSystem 64 reasonParser).run {} connectFailure =
        some { error := some "native command failed with code -4" } ∧
      ¬KeepsFirstError reasonParser connectFailure := by
  have hfirst : (sessionSystem 64 reasonParser).run {} (connectFailure.take 1) =
      some { error := some "Connection failed" } := rfl
  have hsecond : (sessionSystem 64 reasonParser).run { error := some "Connection failed" }
      (connectFailure.drop 1) = some { error := some "native command failed with code -4" } := rfl
  refine ⟨hfirst, rfl, fun hkeeps ↦ ?_⟩
  have hsame := hkeeps (connectFailure.take 1) (connectFailure.drop 1) [] _ _ _ rfl hfirst hsecond
    rfl
  exact absurd hsame (by decide)

end RdpMcp
