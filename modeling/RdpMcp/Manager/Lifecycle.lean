import Mathlib.Logic.Function.Basic
import RdpMcp.Session.Status

/-!
# The lives of connections

`SessionManager` from the outside of a session: the registry, the sessions in it and out of it, the
worker of each, and the calls that open, close and shut down. A call is the **sequence of its
critical sections**, each an action, and any number of calls interleave.

A session is named by the order of its creation and has an id besides, drawn from a `u64` counter
that wraps. Two locks matter. The registry lock makes each look at the registry one action. The
slot lock is held by an open call from before it looks whether the session was stopped until the
worker is stored or not; stopping a session does not take the slot lock, taking the worker does.

What is left of a call once it is about to run `Session::shutdown` is kept with the session, as a
list of such calls. It does not matter who makes them: a close, the manager's shutdown, an open call
that failed, or the destructor of a session whose last reference is gone.

The outcomes of spawning, sending and waiting are chosen freely, and so are the worker's events.
-/

namespace RdpMcp

/-- The worker process of a session. `down`: `WorkerProcess::shutdown` has run to its end. -/
inductive Worker where
  | unborn
  | up
  | down
  deriving DecidableEq, Repr

/-- Where an open call is. -/
inductive OpenPhase where
  /-- `Session::new` has returned. -/
  | created
  | inserted
  | spawned
  /-- It holds the slot lock. -/
  | locked
  /-- It holds the slot lock and has seen whether the session was stopped. -/
  | checked (disconnected : Bool)
  /-- The worker was not stored and is about to be dropped. -/
  | dropping
  | stored
  | sent
  /-- `Session::connect` has failed. -/
  | failing
  /-- It is over, but for a shutdown of the session it may still run. -/
  | ended (ok : Bool)
  deriving DecidableEq, Repr

namespace OpenPhase

/-- The slot lock is taken. -/
def holdsSlot : OpenPhase → Bool
  | locked => true
  | checked _ => true
  | _ => false

/-- The open call is the one that has to look after the worker. -/
def holdsWorker : OpenPhase → Bool
  | spawned => true
  | locked => true
  | checked _ => true
  | dropping => true
  | _ => false

end OpenPhase

/-- Where a call of `Session::shutdown` is. -/
inductive ShutdownPhase where
  | stopping
  | taking
  | closing
  deriving DecidableEq, Repr

/-- A session with its worker, its open call and the shutdowns under way. -/
structure Connection where
  id : String := ""
  callback : SessionState := {}
  /-- The slot holds the worker. -/
  slot : Bool := false
  worker : Worker := .unborn
  opener : OpenPhase := .created
  shutdowns : List ShutdownPhase := []

namespace Connection

/-- One more shutdown begins. -/
def beginShutdown (c : Connection) : Connection :=
  { c with shutdowns := c.shutdowns ++ [.stopping] }

/-- The critical sections of `Session::connect`. -/
def openStep (c : Connection) (outcome : Bool) : Option Connection :=
  match c.opener with
  | .inserted =>
    some (if outcome then { c with worker := .up, opener := .spawned }
      else { c with opener := .failing })
  | .spawned => some { c with opener := .locked }
  | .locked => some { c with opener := .checked c.callback.disconnected }
  | .checked true => some { c with opener := .dropping }
  | .checked false => some { c with slot := true, opener := .stored }
  | .dropping => some { c with worker := .down, opener := .failing }
  | .stored => some { c with opener := if outcome then .sent else .failing }
  | .sent =>
    -- the wait ends, with a timeout if nothing has happened
    match c.callback.checkConnected with
    | .ok () => some { c with opener := .ended true }
    | .error _ => some { c with opener := .failing }
  | _ => none

/-- The critical sections of `Session::shutdown`, for its `k`-th call under way. -/
def shutdownStep (c : Connection) (k : ℕ) : Option Connection :=
  match c.shutdowns[k]? with
  | some .stopping =>
    some { c with callback := c.callback.stop none, shutdowns := c.shutdowns.set k .taking }
  | some .taking =>
    if c.opener.holdsSlot then none
    else if c.slot then some { c with slot := false, shutdowns := c.shutdowns.set k .closing }
    else some { c with shutdowns := c.shutdowns.eraseIdx k }
  | some .closing => some { c with worker := .down, shutdowns := c.shutdowns.eraseIdx k }
  | none => none

end Connection

/-- The registry and all sessions ever created. -/
structure ManagerState where
  nextId : UInt64 := 1
  created : ℕ := 0
  connections : ℕ → Connection := fun _ ↦ {}
  /-- The registry: which session goes by which id. -/
  sessions : List (String × ℕ) := []
  closed : Bool := false

/-- What can happen next. -/
inductive ManagerAction where
  /-- `Session::new`, at the beginning of an open call. -/
  | new
  /-- The open call of a session goes on. -/
  | openCall (i : ℕ) (outcome : Bool)
  /-- A shutdown of a session goes on. -/
  | shutdownSession (i k : ℕ)
  /-- A session's worker reports something. -/
  | output (i : ℕ) (kind : UInt32) (partA partB : List UInt8)
  | close (id : String)
  /-- The locked part of `SessionManager::shutdown`. -/
  | shutdown
  /-- The last reference to a session is gone. -/
  | drop (i : ℕ)

/-- The id of a session. -/
def connectionId (n : UInt64) : String :=
  "rdp_" ++ toString n.toNat

namespace ManagerState

/-- A session is in the registry. -/
def Registered (s : ManagerState) (i : ℕ) : Prop :=
  i ∈ s.sessions.map Prod.snd

instance (s : ManagerState) (i : ℕ) : Decidable (s.Registered i) :=
  inferInstanceAs (Decidable (i ∈ s.sessions.map Prod.snd))

/-- A session that has been created. -/
def connection? (s : ManagerState) (i : ℕ) : Option Connection :=
  if i < s.created then some (s.connections i) else none

/-- Change one connection. -/
def setConnection (s : ManagerState) (i : ℕ) (c : Connection) : ManagerState :=
  { s with connections := Function.update s.connections i c }

theorem setConnection_self (s : ManagerState) (i : ℕ) (c : Connection) :
    (s.setConnection i c).connections i = c :=
  Function.update_self ..

theorem setConnection_of_ne (s : ManagerState) {i j : ℕ} (h : j ≠ i) (c : Connection) :
    (s.setConnection i c).connections j = s.connections j :=
  Function.update_of_ne h ..

/-- `Session::new`. -/
def new (s : ManagerState) : ManagerState :=
  { s.setConnection s.created { id := connectionId s.nextId } with
    nextId := s.nextId + 1
    created := s.created + 1 }

theorem new_connections_self (s : ManagerState) :
    s.new.connections s.created = { id := connectionId s.nextId } :=
  Function.update_self ..

theorem new_connections_of_lt (s : ManagerState) {i : ℕ} (h : i < s.created) :
    s.new.connections i = s.connections i :=
  Function.update_of_ne h.ne ..

/-- `HashMap::remove`. -/
def remove (s : ManagerState) (id : String) : ManagerState :=
  { s with sessions := s.sessions.filter fun entry ↦ entry.1 ≠ id }

/-- `HashMap::insert`, which replaces an entry with the same key. -/
def insert (s : ManagerState) (id : String) (i : ℕ) : ManagerState :=
  { s with sessions := (id, i) :: (s.remove id).sessions }

/-- One critical section of `SessionManager::open`. -/
def openCall (s : ManagerState) (i : ℕ) (c : Connection) (outcome : Bool) : Option ManagerState :=
  match c.opener with
  | .created =>
    if s.closed then
      -- the call fails, and the session goes with it
      some (s.setConnection i { c.beginShutdown with opener := .ended false })
    else some ((s.insert c.id i).setConnection i { c with opener := .inserted })
  | .failing =>
    some ((s.remove c.id).setConnection i { c.beginShutdown with opener := .ended false })
  | _ => (c.openStep outcome).map (s.setConnection i)

/-- `SessionManager::close`, up to the shutdown of the session it has found. -/
def closeCall (s : ManagerState) (id : String) : ManagerState :=
  match s.sessions.lookup id with
  | some i => (s.remove id).setConnection i (s.connections i).beginShutdown
  | none => s

/-- `SessionManager::shutdown`, up to the shutdowns of the sessions it has drained. -/
def shutdownCall (s : ManagerState) : ManagerState :=
  { s with
    connections := fun i ↦
      if s.Registered i then (s.connections i).beginShutdown else s.connections i
    sessions := []
    closed := true }

/-- A shutdown of the manager begins shutdowns and does nothing else to the sessions. -/
theorem shutdownCall_connections (s : ManagerState) (i : ℕ) :
    (¬s.Registered i ∧ s.shutdownCall.connections i = s.connections i) ∨
      (s.Registered i ∧ s.shutdownCall.connections i = (s.connections i).beginShutdown) := by
  by_cases hreg : s.Registered i
  · exact .inr ⟨hreg, if_pos hreg⟩
  · exact .inl ⟨hreg, if_neg hreg⟩

end ManagerState

section System

variable (bits : ℕ) (fromSlice : List UInt8 → Option JsonValue)

/-- **The session manager as a step system.** -/
def managerSystem : StepSystem ManagerState ManagerAction where
  step s
    | .new => some s.new
    | .openCall i outcome => (s.connection? i).bind fun c ↦ s.openCall i c outcome
    | .shutdownSession i k => (s.connection? i).bind fun c ↦
      (c.shutdownStep k).map (s.setConnection i)
    | .output i kind partA partB => (s.connection? i).bind fun c ↦
      if c.worker = .unborn then none
      else (handleNativeOutput bits fromSlice c.callback kind partA partB).map fun callback ↦
        s.setConnection i { c with callback }
    | .close id => some (s.closeCall id)
    | .shutdown => some s.shutdownCall
    | .drop i => (s.connection? i).bind fun c ↦
      match c.opener with
      | .ended _ => if s.Registered i then none else some (s.setConnection i c.beginShutdown)
      | _ => none

end System

end RdpMcp
