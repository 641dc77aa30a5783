import RdpMcp.Foundations.Fallible
import RdpMcp.Session.State

/-!
# Calls that read a session

The client-facing reads of a session. Each takes the state lock one or more times, so each is a
function of **the states it finds there**: one for `dimensions`, a whole schedule for `screenshot`
and `resize`, which wait on the condition variable and look again each time they are woken. The
schedule is arbitrary; which of its states follow which is for the theorems to say.

A wait ends for one of two reasons. Either the deadline has already passed when the call is about to
wait (`Wake.expired`), or the wait returns, possibly by its own timeout, with whatever state the
session is in by then (`Wake.woken`). A schedule that runs out is a deadline that passes.

`PreviewSource::frame` is the one read that does not wait even for the lock: when it is taken, there
is no frame this time.
-/

namespace RdpMcp

/-- How one turn of a waiting loop ends. -/
inductive Wake where
  | expired
  | woken (timedOut : Bool) (state : SessionState)

namespace SessionState

/-- A session whose waiters give up: an error is set or the session was stopped. -/
def finished (state : SessionState) : Bool :=
  state.error.isSome || state.disconnected

/-- `Session::dimensions`. -/
def dimensions (state : SessionState) : Except String (ℕ × ℕ) := do
  state.checkConnected
  if state.width = 0 ∨ state.height = 0 then
    throw "RDP desktop dimensions are not available yet"
  return (state.width, state.height)

end SessionState

/-! ### Frames -/

/-- The pixels of a desktop and what identifies them. -/
structure PreviewFrame where
  width : ℕ
  height : ℕ
  version : UInt64
  pixels : List UInt8
  deriving DecidableEq, Repr

/-- The frame a state holds. -/
def SessionState.snapshot (state : SessionState) : PreviewFrame where
  width := state.width
  height := state.height
  version := state.frameVersion
  pixels := state.framebuffer

/-- `PreviewSource::frame`: `busy` is a failed `try_lock`. -/
def frame (busy : Bool) (state : SessionState) : Except String (Option PreviewFrame) :=
  if busy then .ok none
  else if state.disconnected || state.error.isSome then .error "RDP connection is closed"
  else if !state.connected || !state.hasFrame then .ok none
  else .ok (some state.snapshot)

/-! ### Screenshots -/

def noFrameYet : String :=
  "no RDP desktop frame was received within 10 seconds"

/-- The loop of `Session::screenshot` that waits for a first frame. -/
def waitForFrame : SessionState → List Wake → Except String SessionState
  | state, [] => if !state.hasFrame && !state.finished then .error noFrameYet else .ok state
  | state, wake :: wakes =>
    if !state.hasFrame && !state.finished then
      match wake with
      | .expired => .error noFrameYet
      | .woken timedOut next =>
        if timedOut && !next.hasFrame then .error noFrameYet else waitForFrame next wakes
    else .ok state

/-- The states a screenshot finds: on entry, at each wake-up, after the settling pause it makes when
it had to wait, and when it copies the pixels. -/
structure ScreenshotView where
  entry : SessionState
  wakes : List Wake
  settled : SessionState
  captured : SessionState

/-- The last lock of `Session::screenshot`: copy the frame, if there still is one. -/
def copyFrame (state : SessionState) : Except String PreviewFrame := do
  state.checkConnected
  if state.hasFrame then return state.snapshot
  else throw "RDP desktop resized before capture; retry the screenshot"

/-- `Session::screenshot` up to the copy of the pixels. -/
def captureFrame (view : ScreenshotView) : Except String PreviewFrame := do
  let state ← waitForFrame view.entry view.wakes
  state.checkConnected
  if !view.entry.hasFrame then view.settled.checkConnected
  copyFrame view.captured

/-- `Session::screenshot`, encoding the captured pixels by whatever the caller asked for. -/
def screenshot {Encoded : Type} (encode : PreviewFrame → Except String Encoded)
    (view : ScreenshotView) : Except String (Encoded × PreviewFrame) := do
  let captured ← captureFrame view
  let encoded ← encode captured
  return (encoded, captured)

/-- A frame that is copied is there. -/
theorem eq_snapshot_of_copyFrame {state : SessionState} {f : PreviewFrame}
    (h : copyFrame state = .ok f) : state.hasFrame = true ∧ f = state.snapshot := by
  obtain ⟨-, -, h⟩ := Fallible.exists_of_bind_eq_ok h
  by_cases hframe : state.hasFrame = true
  · rw [if_pos hframe] at h
    cases h
    exact ⟨hframe, rfl⟩
  · rw [if_neg hframe] at h
    cases h

/-- What is captured is copied at the last look. -/
theorem copyFrame_of_captureFrame {view : ScreenshotView} {f : PreviewFrame}
    (h : captureFrame view = .ok f) : copyFrame view.captured = .ok f := by
  obtain ⟨state, -, h⟩ := Fallible.exists_of_bind_eq_ok h
  obtain ⟨-, -, h⟩ := Fallible.exists_of_bind_eq_ok h
  by_cases hwaited : (!view.entry.hasFrame) = true
  · rw [if_pos hwaited] at h
    exact (Fallible.exists_of_bind_eq_ok h).choose_spec.2
  · rw [if_neg hwaited] at h
    exact h

/-! ### Gated operations -/

/-- `SessionManager::with_session`: look the session up, take its operation lock, and run the
operation if the session is usable. `found` is the state the check sees, if the lookup succeeds. -/
def withSession {α : Type} (id : String) (found : Option SessionState)
    (operation : SessionState → Except String α) : Except String α :=
  match found with
  | none => .error s!"connection not found: {id}"
  | some state => do
    state.checkConnected
    operation state

/-- The loop of `resize` that waits for the new size; it never fails, the checks come after it. -/
def waitForSize (width height : ℕ) : SessionState → List Wake → SessionState
  | state, [] => state
  | state, wake :: wakes =>
    if (state.width ≠ width ∨ state.height ≠ height) ∧ state.finished = false then
      match wake with
      | .expired => state
      | .woken timedOut next => if timedOut then next else waitForSize width height next wakes
    else state

/-- `resize` clamps the size it asks for and makes it even. -/
def clampSize (n : ℕ) : ℕ :=
  (min (max n 200) 8192) / 2 * 2

/-- What `resize` does after its command was written: wait, then report. -/
def awaitSize (width height : ℕ) (entry : SessionState) (wakes : List Wake) :
    Except String (ℕ × ℕ) := do
  let state := waitForSize width height entry wakes
  state.checkConnected
  if state.width ≠ width ∨ state.height ≠ height then
    throw s!"RDP resize timed out waiting for {width}x{height}"
  return (state.width, state.height)

/-- `SessionManager::resize`. `command` is the outcome of writing the command, `entry` the state
found when the wait begins. -/
def resize (id : String) (width height : ℕ) (found : Option SessionState)
    (command : Except String Unit) (entry : SessionState) (wakes : List Wake) :
    Except String (ℕ × ℕ) :=
  withSession id found fun _ ↦ do
    command
    awaitSize (clampSize width) (clampSize height) entry wakes

end RdpMcp
