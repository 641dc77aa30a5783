import RdpMcp.Foundations.StepSystem
import RdpMcp.Native.Command

/-!
# The native library and its two threads

The calls of the C interface run on one thread, here the command thread: they initialize, connect,
disconnect and shut down. A connection has a FreeRDP instance and a second thread, which handles its
events until it is told to stop, or until the connection is lost. The threads share global
variables.

The command thread is given by **the statements that it has left**. Each is one step, and some put
others in their place. Of the event thread each access to a shared variable is one step. So a run is
any interleaving of the accesses, and what a step cannot know, whether FreeRDP or the system
succeeds, is part of the action.

`instances` and `threads` and the history are beside the code's state: they remember everything that
ever was, so that a second instance, or a thread that nobody waits for, would show.
-/

namespace RdpMcp

/-! ### States -/

/-- Where `start_connection` fails. -/
inductive ConnectFailure where
  | init
  | connect
  | thread
  deriving DecidableEq, Repr

/-- What the library does. -/
inductive LibraryEffect where
  /-- `connection_init` has made an instance. -/
  | created (i : ℕ)
  /-- `connection_free`. -/
  | freed (i : ℕ)
  | started (t : ℕ) (freerdp : Option ℕ)
  /-- The command thread has waited for a thread. -/
  | joined (t : ℕ)
  /-- `connection_check_events`. -/
  | checkedEvents (freerdp : Option ℕ)
  /-- DISCONNECTED. -/
  | disconnected (t : ℕ)
  | input (freerdp : Option ℕ)
  | error (text : String)
  /-- A call returns; a connect that has failed says where. -/
  | returned (code : ℤ) (failure : Option ConnectFailure)
  deriving DecidableEq, Repr

/-- Where an event thread is in `event_loop_thread`. -/
inductive ThreadPhase where
  /-- Before it reads `g_running` at the top of the loop. -/
  | running
  /-- Before it reads `g_connected`. -/
  | connected
  /-- Before `connection_check_events`. -/
  | events
  /-- Before it clears `g_connected`. -/
  | lost
  /-- Behind the loop, before it reads `g_running`. -/
  | behind
  /-- Before it sends DISCONNECTED. -/
  | sending
  | ended
  deriving DecidableEq, Repr

structure EventThread where
  freerdp : Option ℕ
  phase : ThreadPhase
  deriving DecidableEq, Repr

/-- A statement of the command thread. -/
inductive LibraryOp where
  | setInitialized (value : Bool)
  | setRunning (value : Bool)
  | setConnected (value : Bool)
  /-- Wait for the event thread, if there is one. -/
  | joinThread
  /-- Free the instance, if there is one. -/
  | freeInstance
  /-- `CMD_CONNECT`. -/
  | connect
  /-- `start_connection`. -/
  | startConnection
  | connectionInit
  | connectionConnect
  | createThread
  /-- `g_connected && g_instance`, before an input call whose result is returned or not. -/
  | whenConnected (returned : Bool)
  | input (returned : Bool)
  | error (text : String)
  | returns (code : ℤ) (failure : Option ConnectFailure)
  deriving DecidableEq, Repr

/-- The global variables, the statements that the command thread has left, and what has been. -/
structure Library where
  /-- `g_instance`. -/
  freerdp : Option ℕ := none
  initialized : Bool := false
  running : Bool := false
  connected : Bool := false
  eventThread : Option ℕ := none
  program : List LibraryOp := []
  /-- How many instances there have been. -/
  instances : ℕ := 0
  /-- All event threads that there have been. -/
  threads : List EventThread := []
  history : List LibraryEffect := []

namespace Library

/-- Add to the history. -/
def emit (s : Library) (effect : LibraryEffect) : Library :=
  { s with history := s.history ++ [effect] }

/-! ### Programs -/

/-- `stop_connection`. -/
def stopConnection : List LibraryOp :=
  [.setConnected false, .joinThread, .freeInstance]

/-- The `switch` of `rdp_mcp_native_command`. What does not use the instance only reads the globals.
-/
def commandProgram : Command → List LibraryOp
  | .connect _ => [.connect]
  | .disconnect => stopConnection ++ [.returns 0 none]
  | .mouseMove .. | .mouseButtonDown .. | .mouseButtonUp .. | .mouseScroll .. =>
    [.whenConnected false]
  | .keyDown .. | .keyUp .. | .unicodeKeyDown .. | .unicodeKeyUp .. => [.whenConnected true]
  | .resize .. | .clipboardSet .. | .clipboardSetFiles .. | .clipboardRequestFiles .. =>
    [.returns 0 none]
  | .unknown => [.error "Unknown native command", .returns (-6) none]

/-- `rdp_mcp_native_initialize`: whether there is a callback, and whether the platform succeeds. -/
def initializeProgram (s : Library) (callback platform : Bool) : List LibraryOp :=
  if !callback then [.returns (-1) none]
  else if s.initialized then [.returns (-2) none]
  else if !platform then [.returns (-3) none]
  else [.setRunning true, .setConnected false, .setInitialized true, .returns 0 none]

/-- `rdp_mcp_native_command`, with the command if it can be parsed. -/
def nativeCommandProgram (s : Library) (command : Option Command) : List LibraryOp :=
  if !s.initialized || !s.running then [.returns (-1) none]
  else
    match command with
    | none => [.returns (-2) none]
    | some command => commandProgram command

/-- `rdp_mcp_native_shutdown`. -/
def shutdownProgram (s : Library) : List LibraryOp :=
  if !s.initialized then [.returns 0 none]
  else .setRunning false :: stopConnection ++ [.setInitialized false, .returns 0 none]

/-! ### Steps of the command thread -/

/-- One statement; `rest` is what stands behind it, and `ok` whether what it calls succeeds. Waiting
for a thread is possible when it has ended. -/
def perform (s : Library) (rest : List LibraryOp) (ok : Bool) : LibraryOp → Option Library
  | .setInitialized value => some { s with program := rest, initialized := value }
  | .setRunning value => some { s with program := rest, running := value }
  | .setConnected value => some { s with program := rest, connected := value }
  | .joinThread =>
    match s.eventThread with
    | none => some { s with program := rest }
    | some t =>
      if s.threads[t]?.map EventThread.phase = some .ended then
        some ({ s with program := rest, eventThread := none }.emit (.joined t))
      else none
  | .freeInstance =>
    match s.freerdp with
    | none => some { s with program := rest }
    | some i => some ({ s with program := rest, freerdp := none }.emit (.freed i))
  | .connect =>
    let program :=
      if s.connected then [.error "Already connected", .returns (-3) none] else [.startConnection]
    some { s with program := program ++ rest }
  | .startConnection =>
    let program := if s.freerdp.isSome || s.eventThread.isSome then stopConnection else []
    some { s with program := program ++ .connectionInit :: rest }
  | .connectionInit =>
    if ok then
      some ({ s with
        program := .connectionConnect :: rest
        freerdp := some s.instances
        instances := s.instances + 1 }.emit (.created s.instances))
    else
      some { s with
        program := .error "Failed to initialize FreeRDP" :: .returns (-3) (some .init) :: rest }
  | .connectionConnect =>
    if ok then some { s with program := .setConnected true :: .createThread :: rest }
    else some { s with program := .freeInstance :: .returns (-4) (some .connect) :: rest }
  | .createThread =>
    if ok then
      some ({ s with
        program := .returns 0 none :: rest
        eventThread := some s.threads.length
        threads := s.threads ++ [EventThread.mk s.freerdp .running] }.emit
          (.started s.threads.length s.freerdp))
    else
      some { s with
        program := .error "Failed to create FreeRDP event thread" :: stopConnection ++
          .returns (-5) (some .thread) :: rest }
  | .whenConnected returned =>
    let program :=
      if s.connected && s.freerdp.isSome then [.input returned] else [.returns 0 none]
    some { s with program := program ++ rest }
  | .input returned =>
    let code := if returned && !ok then -7 else 0
    some ({ s with program := .returns code none :: rest }.emit (.input s.freerdp))
  | .error text => some ({ s with program := rest }.emit (.error text))
  | .returns code failure => some ({ s with program := rest }.emit (.returned code failure))

/-! ### Steps of an event thread -/

/-- An event thread is in another phase. -/
def setPhase (s : Library) (t : ℕ) (thread : EventThread) (phase : ThreadPhase) : Library :=
  { s with threads := s.threads.set t { thread with phase } }

/-- One access of an event thread; `ok` is the result of `connection_check_events`. -/
def threadStep (s : Library) (t : ℕ) (ok : Bool) : Option Library :=
  match s.threads[t]? with
  | none => none
  | some thread =>
    match thread.phase with
    | .running => some (s.setPhase t thread (if s.running then .connected else .behind))
    | .connected => some (s.setPhase t thread (if s.connected then .events else .behind))
    | .events =>
      some ((s.setPhase t thread (if ok then .running else .lost)).emit
        (.checkedEvents thread.freerdp))
    | .lost => some { s.setPhase t thread .behind with connected := false }
    | .behind => some (s.setPhase t thread (if s.running then .sending else .ended))
    | .sending => some ((s.setPhase t thread .ended).emit (.disconnected t))
    | .ended => none

end Library

/-- Calls from the command thread, when it is idle, and steps of the threads. -/
inductive LibraryAction where
  | nativeInitialize (callback platform : Bool)
  | nativeCommand (command : Option Command)
  | nativeShutdown
  | proceed (ok : Bool)
  | thread (t : ℕ) (ok : Bool)

/-- The library. -/
def librarySystem : StepSystem Library LibraryAction where
  step s
    | .nativeInitialize callback platform =>
      if s.program = [] then some { s with program := s.initializeProgram callback platform }
      else none
    | .nativeCommand command =>
      if s.program = [] then some { s with program := s.nativeCommandProgram command } else none
    | .nativeShutdown =>
      if s.program = [] then some { s with program := s.shutdownProgram } else none
    | .proceed ok =>
      match s.program with
      | [] => none
      | op :: rest => s.perform rest ok op
    | .thread t ok => s.threadStep t ok

end RdpMcp
