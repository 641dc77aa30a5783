import RdpMcp.Operations.Operation
import RdpMcp.Session.Status

/-!
# The command pipe

One session, the worker it has spawned, and everything that happens around that worker's standard
input: the call that opens the session, any number of tool calls, any number of calls that shut the
session down, and the worker's own events. Each **critical section is one action**, and a state in
which an action is not possible has no step for it, so a run is an interleaving.

The parties:

* the **opener** stores the worker in its slot, unless the session was stopped meanwhile, and sends
  the connect command;
* a **tool call** waits for the operation lock. Its holder runs its operation one action at a time;
  a command is three of them: the gate, the look at the slot, and the write. A failed write stops
  the session in a fourth;
* a **closer** stops the session, takes the worker from its slot, writes the disconnect line if it
  can have the input, and takes the input away.

The closers do not hold the operation lock. Dropping the worker is a closer that has it already.

Two assumptions about the worker's side are built in: READY arrives only when the connect command
has been written, and a write that fails has written nothing. The history of admitted calls is kept
for the statements.
-/

namespace RdpMcp

/-- The connect command of `Session::connect`. -/
def connectCommand (host : String) (port : UInt16) (username password : String) (width height : ℕ) :
    JsonValue :=
  .record [("type", .string "connect"),
    ("config", .record [("host", .string host), ("port", .ofInt port.toNat),
      ("username", .string username), ("password", .string password), ("domain", .string ""),
      ("width", .ofInt (min (max width 200) 8192 : ℕ)),
      ("height", .ofInt (min (max height 200) 8192 : ℕ)),
      ("enableNla", .bool true), ("skipCertVerification", .bool true),
      ("enableGfx", .bool true), ("enableH264", .bool false),
      ("desktopScaleFactor", .ofInt 100), ("deviceScaleFactor", .ofInt 100),
      ("enableClipboard", .bool true), ("drives", .array [])])]

/-- An operation as far as it has been run. -/
abbrev Program := Interaction SessionAct SessionAct.Answer (Except String Unit)

/-- A line on the worker's input. -/
inductive PipeLine where
  | command (command : JsonValue)
  | disconnect

/-- Where the opening call is. `failed`: it gave up before or while sending. -/
inductive Opener where
  | spawned
  | stored
  | sent
  | failed
  deriving DecidableEq

/-- Where the holder of the operation lock is. -/
inductive Phase where
  /-- The lock is taken; the gate of `with_session` is next. -/
  | entered
  | running (rest : Program)
  /-- `Session::command` has passed its gate. -/
  | checked (command : JsonValue) (next : Except String Unit → Program)
  /-- It holds the worker. -/
  | sending (command : JsonValue) (next : Except String Unit → Program)
  /-- The write has failed. -/
  | failing (error : String) (next : Except String Unit → Program)

/-- A call with the operation lock. -/
structure Holder where
  call : ToolCall
  phase : Phase

/-- Where a call of `Session::shutdown` is, once the session is stopped. -/
inductive Closer where
  | taking
  | writing
  | joining

/-- A session and the input of its worker. -/
structure PipeState where
  session : SessionState := {}
  /-- The slot holds the worker. -/
  slot : Bool := false
  /-- The worker's input has not been taken away. -/
  input : Bool := true
  opener : Opener := .spawned
  waiting : List ToolCall := []
  holder : Option Holder := none
  closers : List Closer := []
  lines : List PipeLine := []
  /-- The calls that were admitted, in order. -/
  admitted : List ToolCall := []

/-- What can happen next. -/
inductive PipeAction where
  | output (kind : UInt32) (partA partB : List UInt8)
  | store
  /-- The opener's send, and whether it succeeds. -/
  | connect (sent : Bool)
  | arrive (call : ToolCall)
  /-- A waiting call gets the operation lock. -/
  | acquire (i : ℕ)
  /-- The holder goes on to its next critical section, other than a write. -/
  | proceed
  /-- The holder's write, and the error it fails with. -/
  | write (failure : Option String)
  | shutdown
  /-- A closer goes on. Its write is left out if the input is in use, and may fail. -/
  | close (i : ℕ) (written : Bool)

namespace PipeState

/-- The commands on the input, without the disconnect line. -/
def commands (s : PipeState) : List JsonValue :=
  s.lines.filterMap fun
    | .command v => some v
    | .disconnect => none

/-- The holder moves on. -/
def move (s : PipeState) (call : ToolCall) (phase : Phase) : PipeState :=
  { s with holder := some ⟨call, phase⟩ }

variable (debug : Char → String)

/-- The holder's next critical section, other than a write. -/
def proceed (s : PipeState) (call : ToolCall) : Phase → Option PipeState
  | .entered =>
    match call.op debug, s.session.checkConnected with
    | .ok op, .ok () => some { s.move call (.running op.run) with admitted := s.admitted ++ [call] }
    | _, _ => some { s with holder := none }
  | .running (.done _) => some { s with holder := none }
  | .running (.ask (.command v) next) =>
    match s.session.checkConnected with
    | .ok () => some (s.move call (.checked v next))
    | .error e => some (s.move call (.running (next (.error e))))
  | .running (.ask (.pause _) next) =>
    some (s.move call (.running (next s.session.checkConnected)))
  | .running (.ask (.awaitSize width height) next) =>
    -- the loop has ended; the session is as it found it last
    some (s.move call (.running (next (awaitSize width height s.session []))))
  | .checked v next =>
    if s.slot then some (s.move call (.sending v next))
    else some (s.move call (.running (next (.error "RDP worker is closed"))))
  | .sending _ _ => none
  | .failing e next =>
    some { s.move call (.running (next (.error e))) with session := s.session.stop (some e) }

/-- The holder's write. -/
def write (s : PipeState) (call : ToolCall) (failure : Option String) : Phase → Option PipeState
  | .sending v next =>
    match failure with
    | some e => some (s.move call (.failing e next))
    | none =>
      if s.input then
        some { s.move call (.running (next (.ok ()))) with lines := s.lines ++ [.command v] }
      else none
  | _ => none

/-- The opener at its slot. A worker that is not stored is dropped. -/
def store (s : PipeState) : Option PipeState :=
  if s.opener ≠ .spawned then none
  else if s.session.disconnected then
    some { s with opener := .failed, closers := s.closers ++ [.writing] }
  else some { s with opener := .stored, slot := true }

/-- The opener's send. -/
def connect (s : PipeState) (command : JsonValue) (sent : Bool) : Option PipeState :=
  if s.opener ≠ .stored then none
  else if !sent then some { s with opener := .failed }
  else if s.input then some { s with opener := .sent, lines := s.lines ++ [.command command] }
  else none

/-- A closer's next critical section. -/
def close (s : PipeState) (i : ℕ) (written : Bool) : Closer → PipeState
  | .taking =>
    if s.slot then { s with slot := false, closers := s.closers.set i .writing }
    else { s with closers := s.closers.eraseIdx i }
  | .writing =>
    { s with
      closers := s.closers.set i .joining
      lines := if written && s.input then s.lines ++ [.disconnect] else s.lines }
  | .joining => { s with input := false, closers := s.closers.eraseIdx i }

end PipeState

section System

variable (bits : ℕ) (fromSlice : List UInt8 → Option JsonValue) (debug : Char → String)
  (connect : JsonValue)

/-- **The pipe as a step system.** -/
def pipeSystem : StepSystem PipeState PipeAction where
  step s
    | .output kind partA partB =>
      if kind = msgReady ∧ s.opener ≠ .sent then none
      else (handleNativeOutput bits fromSlice s.session kind partA partB).map fun session ↦
        { s with session }
    | .store => s.store
    | .connect sent => s.connect connect sent
    | .arrive call =>
      match call.op debug with
      | .ok _ => some { s with waiting := s.waiting ++ [call] }
      | .error _ => none
    | .acquire i =>
      match s.waiting[i]?, s.holder with
      | some call, none =>
        some { s with waiting := s.waiting.eraseIdx i, holder := some ⟨call, .entered⟩ }
      | _, _ => none
    | .proceed => s.holder.bind fun holder ↦ s.proceed debug holder.call holder.phase
    | .write failure => s.holder.bind fun holder ↦ s.write holder.call failure holder.phase
    | .shutdown =>
      some { s with session := s.session.stop none, closers := s.closers ++ [.taking] }
    | .close i written => s.closers[i]?.map fun closer ↦ s.close i written closer

end System

end RdpMcp
