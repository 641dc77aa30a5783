import RdpMcp.Session.Finished
import RdpMcp.Worker.Protocol
import RdpMcp.Worker.Run

/-!
# The worker's supervisor

The parent's side of a worker process is three parties and a mailbox. The **reader** thread delivers
the worker's messages and tells the supervisor about the two that end a session; the **supervisor**
thread polls the child, kills it at a deadline or on demand, and publishes the terminal event; and
any number of **shutdown calls** ask for the end and wait for it. The child exits whenever it likes,
time passes, and a state in which a party cannot go on has no step for it, so that a run is an
interleaving.

What a stream makes the reader do is known beforehand (`readerProgram`), when it does it is not.
Three things are left out since nothing here depends on them: the bytes that a shutdown call writes
to the worker's input, which is the one step of its that changes nothing here and may last as long
as the child; the exact poll interval; and poisoned locks, since a panic is the end of the process.
-/

open ByteReader

namespace RdpMcp

/-! ### The parties -/

/-- `CLOSE_TIMEOUT`, in milliseconds. -/
def closeTimeout : ℕ := 3000

/-- How a child process ended, and how its status is printed. -/
structure ExitStatus where
  success : Bool
  text : String
  deriving DecidableEq, Repr

/-- Where the supervisor is. -/
inductive Supervision where
  /-- It is about to call `try_wait`. -/
  | polling
  /-- The child is running; the deadline is next. -/
  | checking
  /-- It is about to look into its mailbox. -/
  | receiving
  /-- The child is killed and waited for, possibly because `try_wait` has failed. -/
  | waiting (cause : Option String)
  /-- The child is gone; the reader is waited for. -/
  | joining (status : Except String ExitStatus)
  | publishing (status : Except String ExitStatus)
  | done
  deriving DecidableEq

/-- Where a call of `WorkerProcess::shutdown` is. -/
inductive ShutdownCall where
  /-- It is about to send `Close`. -/
  | closing
  /-- It writes the disconnect line if it can have the input. -/
  | writing
  /-- It waits for the supervisor's lock. -/
  | locking
  /-- It has the lock, and waits for the supervisor. -/
  | joining
  /-- It has the lock, and takes the input away. -/
  | taking
  | returned
  deriving DecidableEq, Repr

/-- The parent's side of a worker. -/
structure WorkerState where
  /-- What the reader has yet to do. -/
  reader : List StreamEffect
  /-- The control channel. -/
  mailbox : List Control := []
  /-- The status of the child, once it has exited. -/
  child : Option ExitStatus := none
  supervision : Supervision := .polling
  deadline : Option ℕ := none
  now : ℕ := 0
  /-- The child has been waited for. -/
  waited : Bool := false
  /-- The calls of the handler. -/
  calls : List SessionEvent := []
  /-- The supervisor's lock is held. -/
  locked : Bool := false
  /-- The supervisor's handle has not been taken. -/
  handle : Bool := true
  shutdowns : List ShutdownCall := []
  /-- The `WorkerProcess`, which holds a sender of the control channel, has not been dropped. -/
  owned : Bool := true
  deriving DecidableEq

/-- What can happen next. -/
inductive WorkerAction where
  | exit (status : ExitStatus)
  | tick (time : ℕ)
  /-- The reader's next call or signal. -/
  | read
  /-- The supervisor goes on; a call of the operating system may fail. -/
  | supervise (failure : Option String)
  /-- Another call of `shutdown` begins. -/
  | shutdown
  /-- A call of `shutdown` goes on. -/
  | proceed (i : ℕ)
  /-- The `WorkerProcess` is dropped, behind the last call of `shutdown`, its own. -/
  | drop
  deriving DecidableEq

section Texts

variable {ε : Type*} (toVec : JsonValue → List UInt8) (display : StreamError ε → String)

/-- The call that reports a broken stream. -/
def streamErrorCall : Except (StreamError ε) Unit → List StreamEffect
  | .ok () => []
  | .error error => [.handler msgError (errorPayload toVec s!"worker stream: {display error}") []]

/-- **The reader thread**, from its first read to its end. -/
def readerProgram (events : List (ReadEvent UInt8 ε)) : List StreamEffect :=
  (readEvents events).1 ++ streamErrorCall toVec display (readEvents events).2 ++ [.control .stop]

/-- The cause that the terminal event carries. -/
def exitCause : Except String ExitStatus → JsonValue
  | .ok status =>
    if status.success then .null else .string s!"RDP worker exited with {status.text}"
  | .error error => .string s!"could not wait for RDP worker: {error}"

/-- The terminal event. -/
def terminalCall (status : Except String ExitStatus) : SessionEvent :=
  .output msgDisconnected (toVec (.record [("error", exitCause status)])) []

end Texts

namespace WorkerState

/-- `WorkerProcess::spawn`: the threads are about to start. -/
def spawn {ε : Type*} (toVec : JsonValue → List UInt8) (display : StreamError ε → String)
    (events : List (ReadEvent UInt8 ε)) : WorkerState :=
  { reader := readerProgram toVec display events }

/-- The reader's next step. -/
def read (s : WorkerState) : Option WorkerState :=
  match s.reader with
  | [] => none
  | .handler kind partA partB :: reader =>
    some { s with reader, calls := s.calls ++ [.output kind partA partB] }
  | .control signal :: reader => some { s with reader, mailbox := s.mailbox ++ [signal] }

/-- `recv_timeout`: an empty mailbox is a time-out, or the end of the channel if nobody can send. -/
def receive (s : WorkerState) : WorkerState :=
  match s.mailbox with
  | .close :: mailbox =>
    { s with
      mailbox
      deadline := some (s.deadline.getD (s.now + closeTimeout))
      supervision := .polling }
  | .stop :: mailbox => { s with mailbox, supervision := .waiting none }
  | [] =>
    if s.reader = [] ∧ s.owned = false then { s with supervision := .waiting none }
    else { s with supervision := .polling }

variable (toVec : JsonValue → List UInt8)

/-- The supervisor's next step. -/
def supervise (s : WorkerState) (failure : Option String) : Option WorkerState :=
  match s.supervision with
  | .polling =>
    match failure, s.child with
    | some error, _ => some { s with supervision := .waiting (some error) }
    | none, some status => some { s with supervision := .joining (.ok status), waited := true }
    | none, none => some { s with supervision := .checking }
  | .checking =>
    if s.deadline.any (· ≤ s.now) then some { s with supervision := .waiting none }
    else some { s with supervision := .receiving }
  | .receiving => some s.receive
  | .waiting cause =>
    match failure, s.child with
    | some error, _ =>
      some { s with supervision := .joining (.error (cause.getD error)), waited := true }
    | none, some status =>
      some { s with
        supervision := .joining (cause.elim (.ok status) .error)
        waited := true }
    | none, none => none
  | .joining status =>
    if s.reader = [] then some { s with supervision := .publishing status } else none
  | .publishing status =>
    some { s with supervision := .done, calls := s.calls ++ [terminalCall toVec status] }
  | .done => none

/-- A call of `shutdown` moves on. -/
def move (s : WorkerState) (i : ℕ) (call : ShutdownCall) : WorkerState :=
  { s with shutdowns := s.shutdowns.set i call }

/-- The next step of a call of `shutdown`. The lock is held from `locking` to the return. -/
def proceed (s : WorkerState) (i : ℕ) : ShutdownCall → Option WorkerState
  | .closing => some { s.move i .writing with mailbox := s.mailbox ++ [.close] }
  | .writing => some (s.move i .locking)
  | .locking =>
    if s.locked then none
    else if s.handle then some { s.move i .joining with locked := true, handle := false }
    else some { s.move i .taking with locked := true }
  | .joining => if s.supervision = .done then some (s.move i .taking) else none
  | .taking => some { s.move i .returned with locked := false }
  | .returned => none

end WorkerState

/-- **A worker's parent side as a step system.** -/
def workerSystem (toVec : JsonValue → List UInt8) : StepSystem WorkerState WorkerAction where
  step s
    | .exit status => if s.child = none then some { s with child := some status } else none
    | .tick time => some { s with now := s.now + time }
    | .read => s.read
    | .supervise failure => s.supervise toVec failure
    | .shutdown =>
      if s.owned then some { s with shutdowns := s.shutdowns ++ [.closing] } else none
    | .proceed i => s.shutdowns[i]?.bind (s.proceed i)
    | .drop =>
      if s.shutdowns ≠ [] ∧ (∀ call ∈ s.shutdowns, call = .returned) then
        some { s with owned := false }
      else none

end RdpMcp
