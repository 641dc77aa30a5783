import RdpMcp.Foundations.ByteReader
import RdpMcp.Foundations.LittleEndian
import RdpMcp.Worker.Message

/-!
# The event stream

A worker tells its parent what happens as a stream of messages: the kind and the length of the
payload, four bytes each, and the payload. The writer has the payload in two parts and the reader
delivers it in two parts, but the split is not on the wire: the reader finds it again at byte 8 of a
bitmap and nowhere else. So a message comes back as it was sent only if a bitmap's first part has
eight bytes, and any other message comes back with its parts joined (`Message.delivered`).

The end of the stream is recognized **at a message boundary only**: the first byte of a header is
read by itself, and no byte there is a clean end, whereas a stream that stops anywhere else is an
error. Nothing depends on how the bytes arrive; that is the library's doing, and everything here is
a statement about `bytes`.
-/

open ByteReader LittleEndian

namespace RdpMcp

/-! ### Writing -/

/-- `write_message`: the bytes of one message, unless it is too large to be read. -/
def writeMessage (kind : UInt32) (partA partB : List UInt8) : Except String (List UInt8) :=
  if partA.length + partB.length ≤ maxPayload then
    .ok (toBytes 4 kind.toNat ++ toBytes 4 (partA.length + partB.length) ++ (partA ++ partB))
  else .error "worker message too large"

/-! ### Reading -/

/-- Why a stream of messages ends other than by its end. -/
inductive StreamError (ε : Type*) where
  | read (error : ReadError ε)
  | invalidData (text : String)
  deriving DecidableEq, Repr

def exceedsDesktop : String :=
  "worker message exceeds maximum desktop size"

def shortBitmapHeader : String :=
  "short bitmap header"

/-- `Vec::resize`, filling with zeros. -/
def resizeBuffer (buffer : List UInt8) (length : ℕ) : List UInt8 :=
  buffer.take length ++ List.replicate (length - buffer.length) 0

variable {ε : Type*}

/-- The second half of `read_message`: check the announced length, make room and read the payload.
The room is made in the buffer that holds the previous payload. -/
def readPayload (kind : UInt32) (length : ℕ) (payload : List UInt8)
    (events : List (ReadEvent UInt8 ε)) :
    Except (StreamError ε) (Option UInt32) × List UInt8 × List (ReadEvent UInt8 ε) :=
  if length > maxPayload then (.error (.invalidData exceedsDesktop), payload, events)
  else
    let body := readExact length events
    let payload := body.filled ++ (resizeBuffer payload length).drop body.filled.length
    match body.outcome with
    | .error error => (.error (.read error), payload, body.rest)
    | .ok () => (.ok (some kind), payload, body.rest)

/-- `read_message`: the kind of the next message, with its payload in the buffer, or `none` at the
end of the stream. -/
def readMessage (payload : List UInt8) (events : List (ReadEvent UInt8 ε)) :
    Except (StreamError ε) (Option UInt32) × List UInt8 × List (ReadEvent UInt8 ε) :=
  match readFirst events with
  | (.error error, rest) => (.error (.read (.io error)), payload, rest)
  | (.ok none, rest) => (.ok none, payload, rest)
  | (.ok (some first), rest) =>
    let remaining := readExact 7 rest
    match remaining.outcome with
    | .error error => (.error (.read error), payload, remaining.rest)
    | .ok () =>
      let header := first :: remaining.filled
      readPayload (UInt32.ofNat (ofBytes (header.take 4))) (ofBytes (header.drop 4)) payload
        remaining.rest

/-- What the reader thread asks of the supervisor of the child process. -/
inductive Control where
  | close
  | stop
  deriving DecidableEq, Repr

/-- What `read_events` does with its stream: hand a message to the handler, signal the supervisor.
-/
inductive StreamEffect where
  | handler (kind : UInt32) (partA partB : List UInt8)
  | control (signal : Control)
  deriving DecidableEq, Repr

/-- The signal that follows a message. -/
def controlAfter (kind : UInt32) : List StreamEffect :=
  if kind = msgDisconnected then [.control .stop]
  else if kind = msgError then [.control .close]
  else []

/-- The parts of a payload as the handler gets them. -/
def splitPayload (kind : UInt32) (payload : List UInt8) : Except String (List UInt8 × List UInt8) :=
  if kind = msgBitmapUpdate then
    if payload.length < 8 then .error shortBitmapHeader
    else .ok (payload.take 8, payload.drop 8)
  else .ok (payload, [])

theorem length_bytes_readPayload_le (kind : UInt32) (length : ℕ) (payload : List UInt8)
    (events : List (ReadEvent UInt8 ε)) :
    (bytes (readPayload kind length payload events).2.2).length ≤ (bytes events).length := by
  rw [readPayload]
  split
  · exact le_refl _
  · dsimp only
    split <;> exact length_bytes_readExact_le length events

/-- Every message uses up some of the stream. -/
theorem length_bytes_readMessage_lt {payload payload' : List UInt8}
    {events rest : List (ReadEvent UInt8 ε)} {kind : UInt32}
    (h : readMessage payload events = (.ok (some kind), payload', rest)) :
    (bytes rest).length < (bytes events).length := by
  rw [readMessage] at h
  split at h
  · cases h
  · cases h
  case h_3 first after hfirst =>
    have hlt := length_bytes_readFirst_lt hfirst
    have hle := length_bytes_readExact_le 7 after
    dsimp only at h
    split at h
    · cases h
    · have hrest := congrArg (fun r ↦ (bytes r.2.2).length) h
      have hbody := length_bytes_readPayload_le (UInt32.ofNat (ofBytes
        ((first :: (readExact 7 after).filled).take 4))) (ofBytes
        ((first :: (readExact 7 after).filled).drop 4)) payload (readExact 7 after).rest
      simp only at hrest
      omega

/-- The loop of `read_events`, from a given buffer on. -/
def readLoop (payload : List UInt8) (events : List (ReadEvent UInt8 ε)) :
    List StreamEffect × Except (StreamError ε) Unit :=
  match _ : readMessage payload events with
  | (.error error, _, _) => ([], .error error)
  | (.ok none, _, _) => ([], .ok ())
  | (.ok (some kind), payload, rest) =>
    match splitPayload kind payload with
    | .error text => ([], .error (.invalidData text))
    | .ok (partA, partB) =>
      let later := readLoop payload rest
      (.handler kind partA partB :: controlAfter kind ++ later.1, later.2)
termination_by (bytes events).length
decreasing_by exact length_bytes_readMessage_lt ‹_›

/-- `read_events`: deliver the messages of a stream until it ends. -/
def readEvents (events : List (ReadEvent UInt8 ε)) :
    List StreamEffect × Except (StreamError ε) Unit :=
  readLoop [] events

end RdpMcp
