import Mathlib.Data.List.Basic

/-!
# Worker message kinds

The event kinds a worker process writes to its parent, and the size limit both ends enforce. READY
is the worker's own: it is emitted once the synchronous connect command has succeeded, whereas
CONNECTED originates in the native layer before initialization has finished.
-/

namespace RdpMcp

def msgReady : UInt32 := 0
def msgConnected : UInt32 := 1
def msgBitmapUpdate : UInt32 := 2
def msgDisconnected : UInt32 := 3
def msgResized : UInt32 := 4
def msgError : UInt32 := 0xff

/-- `MAX_PAYLOAD`: the largest desktop at four bytes a pixel, and a bitmap header. -/
def maxPayload : ℕ := 8192 * 8192 * 4 + 8

end RdpMcp
