import RdpMcp.Foundations.LittleEndian
import RdpMcp.Foundations.Raster
import RdpMcp.Foundations.StepSystem
import RdpMcp.Json.Value
import RdpMcp.Worker.Message

/-!
# Session state and its events

`SessionState` is what the parent process keeps about one connection, and it changes in exactly two
ways: a worker event arrives (`handleNativeOutput`) or the session is stopped
(`SessionState.stop`). Both run under the state lock, so a session's history is a list of events
and its behavior is the step system `sessionSystem`.

Three points about the arithmetic and the failures:

* a **panic** is `none`. The release profile aborts on panic, so `none` is the death of the whole
  server, and a checked slice is where it can happen;
* `usize` arithmetic wraps at a width given as a parameter, since the release profile has no
  overflow checks and ships 32-bit targets;
* `frameVersion` is a `u64` and wraps as one.

The JSON parser is a parameter too: nothing below depends on which byte strings it accepts.
-/

open Raster LittleEndian

namespace RdpMcp

/-! ### The state -/

/-- What the parent knows about one connection. The initial values are `SessionState::default()`. -/
structure SessionState where
  connected : Bool := false
  disconnected : Bool := false
  width : ℕ := 0
  height : ℕ := 0
  framebuffer : List UInt8 := []
  hasFrame : Bool := false
  frameVersion : UInt64 := 0
  error : Option String := none
  deriving DecidableEq, Repr

namespace SessionState

/-- The gate every operation on a session passes through. -/
def checkConnected (state : SessionState) : Except String Unit :=
  match state.error with
  | some error => .error s!"RDP connection error: {error}"
  | none =>
    if state.disconnected then .error "RDP connection is closed"
    else if !state.connected then .error "RDP connection is still connecting"
    else .ok ()

/-- `CallbackState::stop`: the session ends for good. The first cause wins. -/
def stop (state : SessionState) (error : Option String) : SessionState :=
  { state with
    error := if !state.disconnected && state.error.isNone then error else state.error
    connected := false
    disconnected := true
    framebuffer := []
    hasFrame := false }

end SessionState

/-! ### Dirty rectangles -/

/-- A `usize` of the given width. -/
def usize (bits n : ℕ) : ℕ :=
  n % 2 ^ bits

/-- The rectangle a bitmap header announces. -/
structure DirtyRect where
  x : ℕ
  y : ℕ
  width : ℕ
  height : ℕ
  deriving DecidableEq, Repr

/-- The four `u16` fields of a bitmap header; any other length is no header. -/
def readHeader : List UInt8 → Option DirtyRect
  | [x₀, x₁, y₀, y₁, w₀, w₁, h₀, h₁] =>
    some ⟨ofBytes [x₀, x₁], ofBytes [y₀, y₁], ofBytes [w₀, w₁], ofBytes [h₀, h₁]⟩
  | _ => none

/-- The width of the part of a rectangle that lies on the desktop. -/
def SessionState.copyWidth (state : SessionState) (rect : DirtyRect) : ℕ :=
  min rect.width (state.width - rect.x)

/-- The height of the part of a rectangle that lies on the desktop. -/
def SessionState.copyHeight (state : SessionState) (rect : DirtyRect) : ℕ :=
  min rect.height (state.height - rect.y)

/-- The pixel bytes a rectangle calls for, as the size check computes them. -/
def payloadSize (bits : ℕ) (rect : DirtyRect) : ℕ :=
  usize bits (usize bits (rect.width * rect.height) * 4)

/-- The range of the payload that holds one row's visible part. -/
def sourceRange (bits : ℕ) (state : SessionState) (rect : DirtyRect) (row : ℕ) : ℕ × ℕ :=
  let sourceOffset := usize bits (row * usize bits (rect.width * 4))
  (sourceOffset, usize bits (sourceOffset + usize bits (state.copyWidth rect * 4)))

/-- The range of the framebuffer that one row goes to. -/
def targetRange (bits : ℕ) (state : SessionState) (rect : DirtyRect) (row : ℕ) : ℕ × ℕ :=
  let targetOffset :=
    usize bits (usize bits (usize bits (rect.y + row) * usize bits (state.width * 4)) +
      usize bits (rect.x * 4))
  (targetOffset, usize bits (targetOffset + usize bits (state.copyWidth rect * 4)))

def invalidBitmap : String :=
  "invalid native bitmap payload"

/-- `apply_bitmap`: check the payload against the announced size, clip the rectangle to the desktop,
and copy what is left row by row. `none` is a slice out of range. -/
def applyBitmap (bits : ℕ) (state : SessionState) (header pixels : List UInt8) :
    Option SessionState :=
  match readHeader header with
  | none => some state
  | some rect =>
    if state.width = 0 ∨ state.height = 0 then some state
    else if pixels.length ≠ payloadSize bits rect then
      some { state with error := some invalidBitmap }
    else if state.copyWidth rect = 0 ∨ state.copyHeight rect = 0 then some state
    else
      (copyRows pixels (sourceRange bits state rect) (targetRange bits state rect)
        (state.copyHeight rect) state.framebuffer).map fun framebuffer ↦
          { state with framebuffer, frameVersion := state.frameVersion + 1, hasFrame := true }

/-! ### Worker events -/

section Events

variable (bits : ℕ) (fromSlice : List UInt8 → Option JsonValue)

/-- `value[key].as_u64().unwrap_or(0) as u32`. -/
def dimension (value : JsonValue) (key : String) : ℕ :=
  ((value.index key).asU64.getD 0).toNat % 2 ^ 32

/-- The cause a DISCONNECTED payload carries, if it is an object with one. -/
def disconnectCause (payload : List UInt8) : Option String :=
  (fromSlice payload).bind fun value ↦ (value.index "error").asStr

/-- The text an ERROR payload carries, with a fallback for anything else. -/
def errorMessage (payload : List UInt8) : String :=
  ((fromSlice payload).bind fun value ↦ (value.index "message").asStr).getD
    "unknown native FreeRDP error"

/-- CONNECTED and RESIZED: a new desktop size, if it is a plausible one. The frame is dropped; the
version is not touched. -/
def SessionState.resized (state : SessionState) (width height : ℕ) : SessionState :=
  if (1 ≤ width ∧ width ≤ 8192) ∧ (1 ≤ height ∧ height ≤ 8192) then
    { state with
      width
      height
      framebuffer := List.replicate (usize bits (usize bits (width * height) * 4)) 0
      hasFrame := false }
  else state

/-- `handle_native_output`: one event from the worker. -/
def handleNativeOutput (state : SessionState) (messageType : UInt32) (partA partB : List UInt8) :
    Option SessionState :=
  if messageType = msgDisconnected then some (state.stop (disconnectCause fromSlice partA))
  else if state.disconnected then some state
  else if messageType = msgReady then some { state with connected := true }
  else if messageType = msgConnected ∨ messageType = msgResized then
    match fromSlice partA with
    | some value => some (state.resized bits (dimension value "width") (dimension value "height"))
    | none => some state
  else if messageType = msgBitmapUpdate then applyBitmap bits state partA partB
  else if messageType = msgError then
    some { state with error := some (errorMessage fromSlice partA) }
  else some state

/-- Everything that can happen to a session's state. -/
inductive SessionEvent where
  | output (messageType : UInt32) (partA partB : List UInt8)
  | stop (error : Option String)
  deriving DecidableEq, Repr

/-- A session as a step system: `none` is a panic. -/
def sessionSystem : StepSystem SessionState SessionEvent where
  step state
    | .output messageType partA partB =>
      handleNativeOutput bits fromSlice state messageType partA partB
    | .stop error => some (state.stop error)

end Events

end RdpMcp
