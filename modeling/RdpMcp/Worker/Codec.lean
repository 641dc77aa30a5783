import RdpMcp.Foundations.Position
import RdpMcp.Worker.Protocol

/-!
# What the parent hears

`event_stream_codec` is the codec theorem of the worker's event stream: whatever list of messages is
written, and however its bytes arrive, the parent hears exactly these messages, in order, and then
the end. If the stream is cut short the parent hears the messages that are wholly there, and an
error unless the cut is between two messages. A header that announces too much is an error of its
own.

The proof is one fact about one message (`readLoop_wire`): a stream that starts with a message's
bytes delivers the message and goes on with the stream behind it. Its induction over the list of
messages (`readLoop_wires`) leaves three tails to look at: nothing, a piece of a message, and an
oversized header.
-/

open ByteReader LittleEndian

namespace RdpMcp

/-! ### Messages -/

/-- A message, in the two parts the writer has it in. -/
structure Message where
  kind : UInt32
  partA : List UInt8
  partB : List UInt8
  deriving DecidableEq, Repr

namespace Message

/-- A message the protocol can carry: not too large, and a bitmap's first part is its header. -/
def Sendable (m : Message) : Prop :=
  m.partA.length + m.partB.length ≤ maxPayload ∧
    (m.kind = msgBitmapUpdate → m.partA.length = 8)

instance (m : Message) : Decidable m.Sendable :=
  inferInstanceAs (Decidable (_ ∧ _))

/-- The bytes of a message. -/
def wire (m : Message) : List UInt8 :=
  toBytes 4 m.kind.toNat ++ toBytes 4 (m.partA.length + m.partB.length) ++ (m.partA ++ m.partB)

/-- What the parent does when it hears a message: a bitmap arrives in its two parts, anything else
in one. -/
def delivered (m : Message) : List StreamEffect :=
  (if m.kind = msgBitmapUpdate then .handler m.kind m.partA m.partB
    else .handler m.kind (m.partA ++ m.partB) []) :: controlAfter m.kind

theorem length_wire (m : Message) : m.wire.length = 8 + m.partA.length + m.partB.length := by
  simp only [wire, List.length_append, length_toBytes]
  omega

theorem writeMessage_of_sendable {m : Message} (h : m.Sendable) :
    writeMessage m.kind m.partA m.partB = .ok m.wire :=
  if_pos h.1

/-- The reader finds the writer's split again. -/
theorem splitPayload_of_sendable {m : Message} (h : m.Sendable) :
    ∃ partA partB, splitPayload m.kind (m.partA ++ m.partB) = .ok (partA, partB) ∧
      m.delivered = .handler m.kind partA partB :: controlAfter m.kind := by
  by_cases hkind : m.kind = msgBitmapUpdate
  · have hlen := h.2 hkind
    have hlong : ¬(m.partA ++ m.partB).length < 8 := by
      rw [List.length_append]
      omega
    refine ⟨m.partA, m.partB, ?_, by rw [delivered, if_pos hkind]⟩
    rw [splitPayload, if_pos hkind, if_neg hlong, ← hlen, List.take_left, List.drop_left]
  · exact ⟨m.partA ++ m.partB, [], by rw [splitPayload, if_neg hkind],
      by rw [delivered, if_neg hkind]⟩

end Message

/-- Write messages one after the other. -/
def writeMessages : List Message → Except String (List UInt8)
  | [] => .ok []
  | m :: messages => do
    let first ← writeMessage m.kind m.partA m.partB
    let others ← writeMessages messages
    return first ++ others

/-- The bytes of a list of messages. -/
def wires (messages : List Message) : List UInt8 :=
  messages.flatMap Message.wire

theorem writeMessages_of_sendable {messages : List Message} (h : ∀ m ∈ messages, m.Sendable) :
    writeMessages messages = .ok (wires messages) := by
  induction messages with
  | nil => rfl
  | cons m messages ih =>
    rw [writeMessages, Message.writeMessage_of_sendable (h m List.mem_cons_self),
      ih fun m hm ↦ h m (List.mem_cons_of_mem _ hm)]
    rfl

/-! ### One message -/

section Reading

variable {ε : Type*} {events : List (ReadEvent UInt8 ε)} (payload : List UInt8)

/-- A complete header leads to the payload. -/
theorem readMessage_of_header (hrel : Reliable events) {kind length : ℕ} (hkind : kind < 2 ^ 32)
    (hlength : length < 2 ^ 32) {ys : List UInt8}
    (hbytes : bytes events = toBytes 4 kind ++ toBytes 4 length ++ ys) :
    ∃ rest, Reliable rest ∧ bytes rest = ys ∧
      readMessage payload events = readPayload (UInt32.ofNat kind) length payload rest := by
  obtain ⟨first, seven, hheader, hseven⟩ : ∃ first seven,
      toBytes 4 kind ++ toBytes 4 length = first :: seven ∧ seven.length = 7 :=
    ⟨_, _, rfl, by simp⟩
  rw [hheader, List.cons_append] at hbytes
  obtain ⟨mid, hfirst, hmid, hmidbytes⟩ := readFirst_of_cons hrel hbytes
  obtain ⟨rest, hread, hrest, hrestbytes⟩ := readExact_of_append hmid hmidbytes
  refine ⟨rest, hrest, hrestbytes, ?_⟩
  have htake : (first :: seven).take 4 = toBytes 4 kind := by
    rw [← hheader, List.take_left' (length_toBytes 4 kind)]
  have hdrop : (first :: seven).drop 4 = toBytes 4 length := by
    rw [← hheader, List.drop_left' (length_toBytes 4 kind)]
  rw [hseven] at hread
  simp only [readMessage, hfirst, hread, htake, hdrop,
    ofBytes_toBytes_of_lt (show kind < 256 ^ 4 from hkind),
    ofBytes_toBytes_of_lt (show length < 256 ^ 4 from hlength)]

/-- A header that is cut short is an error. -/
theorem readMessage_of_short_header (hrel : Reliable events) (hne : bytes events ≠ [])
    (hlt : (bytes events).length < 8) :
    ∃ payload' rest, readMessage payload events =
      (.error (.read .unexpectedEof), payload', rest) := by
  obtain ⟨first, ys, hys⟩ := List.exists_cons_of_ne_nil hne
  obtain ⟨mid, hfirst, hmid, hmidbytes⟩ := readFirst_of_cons hrel hys
  rw [hys, List.length_cons, ← hmidbytes] at hlt
  simp only [readMessage, hfirst, readExact_of_lt hmid (show (bytes mid).length < 7 by omega)]
  exact ⟨_, _, rfl⟩

/-- **A message read back**: its kind, its payload in the buffer, and the stream behind it. -/
theorem readMessage_wire (hrel : Reliable events) {m : Message} (hm : m.Sendable)
    {ys : List UInt8} (hbytes : bytes events = m.wire ++ ys) :
    ∃ rest, Reliable rest ∧ bytes rest = ys ∧
      readMessage payload events = (.ok (some m.kind), m.partA ++ m.partB, rest) := by
  have hmax : maxPayload < 2 ^ 32 := by decide
  have hlen := hm.1
  rw [Message.wire, List.append_assoc] at hbytes
  obtain ⟨mid, hmid, hmidbytes, hread⟩ := readMessage_of_header payload hrel m.kind.toNat_lt
    (show m.partA.length + m.partB.length < 2 ^ 32 by omega) hbytes
  obtain ⟨rest, hbody, hrest, hrestbytes⟩ := readExact_of_append hmid hmidbytes
  refine ⟨rest, hrest, hrestbytes, ?_⟩
  rw [List.length_append] at hbody
  have hroom : (resizeBuffer payload (m.partA.length + m.partB.length)).drop
      (m.partA ++ m.partB).length = [] := by
    refine List.drop_of_length_le ?_
    simp only [resizeBuffer, List.length_append, List.length_take, List.length_replicate]
    omega
  rw [hread, readPayload, if_neg (by omega), UInt32.ofNat_toNat]
  simp only [hbody, hroom, List.append_nil]

/-- A payload that is cut short is an error. -/
theorem readMessage_of_short_payload (hrel : Reliable events) {m : Message} (hm : m.Sendable)
    {ys : List UInt8} (hlt : ys.length < m.partA.length + m.partB.length)
    (hbytes : bytes events =
      toBytes 4 m.kind.toNat ++ toBytes 4 (m.partA.length + m.partB.length) ++ ys) :
    ∃ payload' rest, readMessage payload events =
      (.error (.read .unexpectedEof), payload', rest) := by
  have hmax : maxPayload < 2 ^ 32 := by decide
  have hlen := hm.1
  obtain ⟨mid, hmid, hmidbytes, hread⟩ := readMessage_of_header payload hrel m.kind.toNat_lt
    (show m.partA.length + m.partB.length < 2 ^ 32 by omega) hbytes
  rw [← hmidbytes] at hlt
  rw [hread, readPayload, if_neg (by omega), readExact_of_lt hmid hlt]
  exact ⟨_, _, rfl⟩

/-- **A header that announces too much** is an error, and leaves the buffer alone. -/
theorem readMessage_of_oversized (hrel : Reliable events) {kind length : ℕ} (hkind : kind < 2 ^ 32)
    (hlength : length < 2 ^ 32) (hlarge : maxPayload < length) {ys : List UInt8}
    (hbytes : bytes events = toBytes 4 kind ++ toBytes 4 length ++ ys) :
    ∃ rest, readMessage payload events = (.error (.invalidData exceedsDesktop), payload, rest) := by
  obtain ⟨rest, -, -, hread⟩ := readMessage_of_header payload hrel hkind hlength hbytes
  exact ⟨rest, by rw [hread, readPayload, if_pos hlarge]⟩

/-! ### The loop -/

theorem readLoop_of_error {payload' : List UInt8} {rest : List (ReadEvent UInt8 ε)}
    {error : StreamError ε} (h : readMessage payload events = (.error error, payload', rest)) :
    readLoop payload events = ([], .error error) := by
  rw [readLoop]
  split <;> simp_all

theorem readLoop_of_end (hrel : Reliable events) (hbytes : bytes events = []) :
    readLoop payload events = ([], .ok ()) := by
  have h : readMessage payload events = (.ok none, payload, []) := by
    simp only [readMessage, readFirst_of_nil hrel hbytes]
  rw [readLoop]
  split <;> simp_all

/-- A message is delivered, and the loop goes on behind it. -/
theorem readLoop_wire (hrel : Reliable events) {m : Message} (hm : m.Sendable)
    {ys : List UInt8} (hbytes : bytes events = m.wire ++ ys) :
    ∃ payload' rest, Reliable rest ∧ bytes rest = ys ∧
      readLoop payload events =
        (m.delivered ++ (readLoop payload' rest).1, (readLoop payload' rest).2) := by
  obtain ⟨rest, hrest, hrestbytes, hread⟩ := readMessage_wire payload hrel hm hbytes
  obtain ⟨partA, partB, hsplit, hdelivered⟩ := Message.splitPayload_of_sendable hm
  refine ⟨m.partA ++ m.partB, rest, hrest, hrestbytes, ?_⟩
  rw [readLoop, hdelivered]
  split
  case h_1 h | h_2 h => cases h.symm.trans hread
  case h_3 h =>
    cases h.symm.trans hread
    simp only [hsplit]

/-- A list of messages is delivered in order, and the loop goes on behind it. -/
theorem readLoop_wires (hrel : Reliable events) {messages : List Message}
    (hm : ∀ m ∈ messages, m.Sendable) {ys : List UInt8}
    (hbytes : bytes events = wires messages ++ ys) :
    ∃ payload' rest, Reliable rest ∧ bytes rest = ys ∧
      readLoop payload events = (messages.flatMap Message.delivered ++ (readLoop payload' rest).1,
        (readLoop payload' rest).2) := by
  induction messages generalizing payload events with
  | nil => exact ⟨payload, events, hrel, hbytes, rfl⟩
  | cons m messages ih =>
    rw [wires, List.flatMap_cons, List.append_assoc] at hbytes
    obtain ⟨mid, next, hnext, hnextbytes, hloop⟩ :=
      readLoop_wire payload hrel (hm m List.mem_cons_self) hbytes
    obtain ⟨payload', rest, hrest, hrestbytes, hloop'⟩ :=
      ih mid hnext (fun m' hm' ↦ hm m' (List.mem_cons_of_mem _ hm')) hnextbytes
    refine ⟨payload', rest, hrest, hrestbytes, ?_⟩
    rw [hloop, hloop', List.flatMap_cons, List.append_assoc]

/-- A piece of a message delivers nothing, and is an error unless it is empty. -/
theorem readLoop_of_piece (hrel : Reliable events) {m : Message} (hm : m.Sendable) {c : ℕ}
    (hc : c < m.wire.length) (hbytes : bytes events = m.wire.take c) :
    readLoop payload events = ([], if c = 0 then .ok () else .error (.read .unexpectedEof)) := by
  rw [Message.length_wire] at hc
  by_cases hzero : c = 0
  · rw [if_pos hzero]
    exact readLoop_of_end payload hrel (by rw [hbytes, hzero, List.take_zero])
  rw [if_neg hzero]
  have hlen : (bytes events).length = c := by
    rw [hbytes, List.length_take, Message.length_wire]
    omega
  by_cases hshort : c < 8
  · obtain ⟨payload', rest, hread⟩ := readMessage_of_short_header payload hrel
      (fun h ↦ hzero (by rw [← hlen, h, List.length_nil])) (by omega)
    exact readLoop_of_error payload hread
  · -- the header is complete, so the cut is inside the payload
    have hheader : (toBytes 4 m.kind.toNat ++
        toBytes 4 (m.partA.length + m.partB.length)).length = 8 := by simp
    rw [Message.wire, List.take_append, List.take_of_length_le (by omega), hheader] at hbytes
    obtain ⟨payload', rest, hread⟩ := readMessage_of_short_payload payload hrel hm
      (by rw [List.length_take, List.length_append]; omega) hbytes
    exact readLoop_of_error payload hread

end Reading

/-! ### The stream -/

/-- A cut inside a list of messages is inside one message, behind some and before others. -/
theorem exists_cut {messages : List Message} {cut : ℕ} (h : cut < (wires messages).length) :
    ∃ before m after c, messages = before ++ m :: after ∧ c < m.wire.length ∧
      cut = (wires before).length + c ∧
      (wires messages).take cut = wires before ++ m.wire.take c :=
  exists_cut_flatMap h

/-- A stream of messages is delivered to the end. -/
theorem readEvents_wires {ε : Type*} {events : List (ReadEvent UInt8 ε)} (hrel : Reliable events)
    {messages : List Message} (hm : ∀ m ∈ messages, m.Sendable)
    (hbytes : bytes events = wires messages) :
    readEvents events = (messages.flatMap Message.delivered, .ok ()) := by
  obtain ⟨payload', rest, hrest, hrestbytes, hloop⟩ :=
    readLoop_wires [] hrel hm (hbytes.trans (List.append_nil _).symm)
  rw [readEvents, hloop, readLoop_of_end payload' hrest hrestbytes, List.append_nil]

/-- **The event stream codec.** A list of messages is written to some bytes. However these bytes
arrive, the handler is called exactly once for each message, in order, and the stream ends well. If
the stream stops early, the handler is called for exactly the messages that are wholly there, and
the stream ends well only at a message boundary. A header that announces more than the maximum is an
error that leaves the payload buffer as it was. -/
theorem event_stream_codec {ε : Type} {messages : List Message}
    (hm : ∀ m ∈ messages, m.Sendable) :
    writeMessages messages = .ok (wires messages) ∧
      (∀ events : List (ReadEvent UInt8 ε), Reliable events → bytes events = wires messages →
        readEvents events = (messages.flatMap Message.delivered, .ok ())) ∧
      (∀ cut < (wires messages).length, ∃ before m after, messages = before ++ m :: after ∧
        (wires before).length ≤ cut ∧ cut < (wires (before ++ [m])).length ∧
        ∀ events : List (ReadEvent UInt8 ε), Reliable events →
          bytes events = (wires messages).take cut →
          readEvents events = (before.flatMap Message.delivered,
            if cut = (wires before).length then .ok () else .error (.read .unexpectedEof))) ∧
      ∀ kind < 2 ^ 32, ∀ length < 2 ^ 32, maxPayload < length → ∀ tail : List UInt8,
        (∀ (events : List (ReadEvent UInt8 ε)) (payload : List UInt8), Reliable events →
          bytes events = toBytes 4 kind ++ toBytes 4 length ++ tail →
          ∃ rest, readMessage payload events =
            (.error (.invalidData exceedsDesktop), payload, rest)) ∧
        ∀ events : List (ReadEvent UInt8 ε), Reliable events →
          bytes events = wires messages ++ (toBytes 4 kind ++ toBytes 4 length ++ tail) →
          readEvents events =
            (messages.flatMap Message.delivered, .error (.invalidData exceedsDesktop)) := by
  refine ⟨writeMessages_of_sendable hm, fun events hrel ↦ readEvents_wires hrel hm,
    fun cut hcut ↦ ?_, fun kind hkind length hlength hlarge tail ↦
      ⟨fun events payload hrel hbytes ↦
        readMessage_of_oversized payload hrel hkind hlength hlarge hbytes,
        fun events hrel hbytes ↦ ?_⟩⟩
  · obtain ⟨before, m, after, c, rfl, hc, hcut', htake⟩ := exists_cut hcut
    have hlast : (wires (before ++ [m])).length = (wires before).length + m.wire.length := by
      simp [wires]
    refine ⟨before, m, after, rfl, by omega, by omega, fun events hrel hbytes ↦ ?_⟩
    obtain ⟨payload', rest, hrest, hrestbytes, hloop⟩ := readLoop_wires [] hrel
      (fun m' hm' ↦ hm m' (List.mem_append_left _ hm')) (hbytes.trans htake)
    have hiff : cut = (wires before).length ↔ c = 0 := by omega
    rw [readEvents, hloop, readLoop_of_piece payload' hrest
      (hm m (List.mem_append_right _ List.mem_cons_self)) hc hrestbytes, List.append_nil]
    simp only [hiff]
  · obtain ⟨payload', rest, hrest, hrestbytes, hloop⟩ := readLoop_wires [] hrel hm hbytes
    obtain ⟨rest', hread⟩ :=
      readMessage_of_oversized payload' hrest hkind hlength hlarge hrestbytes
    rw [readEvents, hloop, readLoop_of_error payload' hread, List.append_nil]

section Fragments

/-- A one-pixel bitmap and a READY. -/
def pixelThenReady : List Message :=
  [⟨msgBitmapUpdate, [0, 0, 0, 0, 1, 0, 1, 0], [10, 20, 30, 255]⟩, ⟨msgReady, [], []⟩]

/-- Their bytes, in pieces that ignore every boundary. -/
def pieces : List (ReadEvent UInt8 Unit) :=
  [.data 2 [0, 0], .interrupted, .data 0 [12, 0, 0, 0, 0, 0, 0, 0, 1],
    .data 0 [1, 0, 10, 20, 30, 255, 0, 0], .interrupted, .interrupted, .data 0 [0, 0, 0, 0, 0]]

theorem event_stream_codec_pieces :
    readEvents pieces = ([.handler msgBitmapUpdate [0, 0, 0, 0, 1, 0, 1, 0] [10, 20, 30, 255],
      .handler msgReady [] []], .ok ()) :=
  (event_stream_codec (show ∀ m ∈ pixelThenReady, m.Sendable from by decide)).2.1 pieces
    (fun error h ↦ by simp [pieces] at h) rfl

end Fragments

end RdpMcp
