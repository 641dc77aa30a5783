import Mathlib.Data.Fintype.EquivFin
import Mathlib.Order.Fin.Basic
import RdpMcp.Foundations.LockOrder

/-!
# The locks of the server

Tool calls run on threads of their own, any number at a time. Each session has a lock for its state,
one for the operation that is under way, and one for the slot of its worker; a worker has a lock for
its input and one for the handle of its supervisor, which waits for the reader. Here every function
is what it does about these locks. **What is dropped last is shut down by whoever drops it**, so a
shutdown may follow wherever a session or a worker goes out of scope. A condition variable gives its
lock back for a while, and then the wait has a deadline; what is read from a worker comes to an end
when the supervisor has killed it, and so does what is written to it.

A shutdown waits for the supervisor under the lock of its handle, and a call that drops a worker
does so under the lock of the operation. Since the threads of a worker take no lock but that of the
state, no thread is stuck (`session_progress`).
-/

open LockOrder LockOrder.Code

namespace RdpMcp

namespace SessionLocks

variable (S : Type)

inductive Lock where
  /-- `SessionManager::inner`. -/
  | registry
  | operation (session : S)
  /-- `Session::worker`. -/
  | slot (session : S)
  /-- `CallbackState::inner`. -/
  | state (session : S)
  /-- `WorkerProcess::input`. -/
  | input (session : S)
  /-- `WorkerProcess::supervisor`. -/
  | handle (session : S)
  deriving DecidableEq

inductive Thread where
  /-- A thread that runs tool calls. -/
  | caller (n : ℕ)
  /-- A thread that a shutdown of the manager closes a session on. -/
  | closer (session : S)
  | reader (session : S)
  | supervisor (session : S)
  deriving DecidableEq

/-- What a function does about locks and threads. -/
abbrev LockCode :=
  Code (Lock S) (Thread S)

def ranking : Ranking (Lock S) (Thread S) (Fin 8) where
  lock
    | .registry | .operation _ => 2
    | .slot _ => 3
    | .handle _ => 4
    | .state _ | .input _ => 7
  thread
    | .caller _ => 0
    | .closer _ => 1
    | .supervisor _ => 5
    | .reader _ => 6

variable {S}

/-! ### Sessions -/

section Session

variable (s : S)

/-- `handle_native_output`. -/
def handleNativeOutput : LockCode S :=
  under (.state s) skip

/-- `CallbackState::stop`. -/
def stop : LockCode S :=
  under (.state s) skip

/-- Wait for a change of the state, under its lock. -/
def waitTimeout : LockCode S :=
  outside (.state s) skip

/-- `first?`, and what comes behind it. -/
def orReturn (first next : LockCode S) : LockCode S :=
  seq first (maybe next)

/-- `WorkerProcess::send`. A command that is too large is refused before. -/
def send : LockCode S :=
  maybe (under (.input s) skip)

/-- `WorkerProcess::shutdown`, which does not wait for a command that is being written. -/
def workerShutdown : LockCode S :=
  seq (attempt (.input s) (release (.input s)) skip)
    (under (.handle s) (seq (maybe (join (.supervisor s))) (under (.input s) skip)))

/-- The threads of `WorkerProcess::spawn`. -/
def spawn : LockCode S :=
  seq (start (.reader s)) (start (.supervisor s))

def reader : LockCode S :=
  seq (loop (handleNativeOutput s)) (maybe (handleNativeOutput s))

def supervisor : LockCode S :=
  seq (join (.reader s)) (handleNativeOutput s)

/-- `Session::shutdown`, which may be the last to have the worker. -/
def shutdown : LockCode S :=
  all [stop s, under (.slot s) skip, maybe (seq (workerShutdown s) (maybe (workerShutdown s)))]

/-- A session goes out of scope, perhaps for the last time. -/
def dropSession : LockCode S :=
  maybe (shutdown s)

def dropWorker : LockCode S :=
  maybe (workerShutdown s)

def waitConnected : LockCode S :=
  under (.state s) (loop (waitTimeout s))

def connect : LockCode S :=
  maybe <| seq (spawn s) <| seq (acquire (.slot s)) <| seq (under (.state s) skip) <|
    either
      -- the session has been closed
      (seq (release (.slot s)) (dropWorker s))
      (all [release (.slot s), send s, maybe (waitConnected s), dropWorker s])

def command : LockCode S :=
  orReturn (under (.state s) skip) <| orReturn (under (.slot s) skip) <|
    all [send s, maybe (stop s), dropWorker s]

def pause : LockCode S :=
  under (.state s) (loop (waitTimeout s))

def info : LockCode S :=
  under (.state s) skip

def dimensions : LockCode S :=
  under (.state s) skip

def screenshot : LockCode S :=
  orReturn (under (.state s) (loop (waitTimeout s))) <|
    either (orReturn (pause s) (under (.state s) skip)) (under (.state s) skip)

/-- `PreviewSource::frame`, which does not wait. -/
def frame : LockCode S :=
  attempt (.state s) (release (.state s)) skip

/-! ### The manager -/

def get : LockCode S :=
  under .registry skip

def list (sessions : List S) : LockCode S :=
  all [under .registry skip, all (sessions.map info), all (sessions.map dropSession)]

/-- The sessions in `same` have the id of `s`: what `insert` displaces or `remove` takes out is
dropped before the registry is given back. -/
def «open» (same : List S) : LockCode S :=
  maybe <| seq (acquire .registry) <|
    either
      -- the manager is shutting down
      (seq (release .registry) (dropSession s))
      (all [all (same.map dropSession), release .registry, connect s,
        either
          (all [under .registry (all (same.map dropSession)), shutdown s, dropSession s])
          (seq (info s) (dropSession s))])

def close : LockCode S :=
  orReturn get (seq (shutdown s) (dropSession s))

/-- A thread of `SessionManager::shutdown`. -/
def closer : LockCode S :=
  seq (shutdown s) (dropSession s)

def managerShutdown (sessions : List S) : LockCode S :=
  all [under .registry skip, all (sessions.map fun s ↦ start (.closer s)),
    all (sessions.map fun s ↦ join (.closer s))]

/-- `with_session`. -/
def withSession (operation : LockCode S) : LockCode S :=
  orReturn get <|
    seq (under (.operation s) (orReturn (under (.state s) skip) operation)) (dropSession s)

/-- A call on a session that is looked up. -/
def ofSession (operation : LockCode S) : LockCode S :=
  orReturn get (seq operation (dropSession s))

def mouseMove : LockCode S :=
  withSession s (command s)

/-- One round of the loop of `mouse_click`, and what comes behind it. -/
def clickOnce (next : LockCode S) : LockCode S :=
  orReturn (command s) (orReturn (command s) next)

/-- The name of the button is looked up before the session. -/
def mouseClick : LockCode S :=
  maybe (withSession s (clickOnce s (maybe (orReturn (pause s) (clickOnce s skip)))))

/-- The button is released even if the movement fails. -/
def mouseDrag : LockCode S :=
  maybe <| withSession s <| orReturn (command s) <| orReturn (command s) <|
    seq (loop (orReturn (command s) (pause s))) (command s)

def mouseScroll : LockCode S :=
  withSession s (command s)

def typeText : LockCode S :=
  withSession s (loop (seq (loop (orReturn (command s) (command s))) (maybe (pause s))))

/-- `send_key_stroke`. -/
def sendKeyStroke : LockCode S :=
  either
    (seq (loop (orReturn (command s) (pause s))) <| maybe <|
      orReturn (command s) <| orReturn (pause s) <| orReturn (command s) <|
        seq (loop (orReturn (pause s) (command s))) (maybe (pause s)))
    (maybe (command s))

/-- The key and the modifiers are looked up before the session. -/
def sendKey : LockCode S :=
  maybe (withSession s (sendKeyStroke s))

def resize : LockCode S :=
  withSession s (orReturn (command s) (under (.state s) (loop (waitTimeout s))))

end Session

variable (S) in
/-- What is asked of the manager. -/
inductive Call where
  | list (sessions : List S)
  /-- The sessions have the same id. -/
  | open (session : S) (same : List S)
  | close (session : S)
  | shutdown (sessions : List S)
  | dimensions (session : S)
  | screenshot (session : S)
  /-- A preview, and its frames. -/
  | preview (session : S)
  | mouseMove (session : S)
  | mouseClick (session : S)
  | mouseDrag (session : S)
  | mouseScroll (session : S)
  | typeText (session : S)
  | sendKey (session : S)
  | resize (session : S)

def Call.code : Call S → LockCode S
  | .list sessions => SessionLocks.list sessions
  | .open s same => SessionLocks.open s same
  | .close s => SessionLocks.close s
  | .shutdown sessions => managerShutdown sessions
  | .dimensions s => ofSession s (SessionLocks.dimensions s)
  | .screenshot s => ofSession s (SessionLocks.screenshot s)
  | .preview s => seq (ofSession s skip) (loop (frame s))
  | .mouseMove s => SessionLocks.mouseMove s
  | .mouseClick s => SessionLocks.mouseClick s
  | .mouseDrag s => SessionLocks.mouseDrag s
  | .mouseScroll s => SessionLocks.mouseScroll s
  | .typeText s => SessionLocks.typeText s
  | .sendKey s => SessionLocks.sendKey s
  | .resize s => SessionLocks.resize s

/-- The threads of the server, each caller with the calls that it is given. -/
def code (calls : ℕ → List (Call S)) : Thread S → LockCode S
  | .caller n => all ((calls n).map Call.code)
  | .closer s => closer s
  | .reader s => reader s
  | .supervisor s => supervisor s

/-- The callers are there from the start. -/
def initial : Thread S → Bool
  | .caller _ => true
  | _ => false

/-! ### The order -/

section Check

variable [DecidableEq S] {s : S} {base : Fin 8} {held : List (Lock S)}

theorem check_state (h : (ranking S).Above base held 7) :
    check (ranking S) base (under (.state s) skip) held = some held :=
  check_under h rfl

theorem check_orReturn {first next : LockCode S}
    (hfirst : check (ranking S) base first held = some held)
    (hnext : check (ranking S) base next held = some held) :
    check (ranking S) base (orReturn first next) held = some held :=
  (check_seq hfirst).trans (check_maybe hnext)

theorem check_send (h : (ranking S).Above base held 7) :
    check (ranking S) base (send s) held = some held :=
  check_maybe (check_under h rfl)

/-- A wait gives the state back for a while. -/
theorem check_waiting (h : (ranking S).Above base held 7) :
    check (ranking S) base (under (.state s) (loop (waitTimeout s))) held = some held :=
  check_under h (check_loop (check_outside h rfl))

theorem check_pause (h : (ranking S).Above base held 7) :
    check (ranking S) base (pause s) held = some held :=
  check_waiting h

/-- **The supervisor is waited for** under the lock of its handle. -/
theorem check_workerShutdown (h : (ranking S).Above base held 4) :
    check (ranking S) base (workerShutdown s) held = some held := by
  have hinput := h.mono (show (4 : Fin 8) ≤ 7 by decide)
  have hthread := h.mono (show (4 : Fin 8) ≤ 5 by decide)
  refine (check_seq (check_attempt check_release rfl)).trans (check_under h ?_)
  refine (check_seq (check_maybe (check_join ?_))).trans (check_under ?_ rfl)
  · exact hthread.cons (show (4 : Fin 8) < 5 by decide)
  · exact hinput.cons (show (4 : Fin 8) < 7 by decide)

theorem check_shutdown (h : (ranking S).Above base held 3) :
    check (ranking S) base (shutdown s) held = some held := by
  have hworker : check (ranking S) base (workerShutdown s) held = some held :=
    check_workerShutdown (h.mono (by decide))
  refine check_all fun c hc ↦ ?_
  simp only [List.mem_cons, List.not_mem_nil, or_false] at hc
  rcases hc with rfl | rfl | rfl
  · exact check_state (h.mono (by decide))
  · exact check_under h rfl
  · exact check_maybe ((check_seq hworker).trans (check_maybe hworker))

theorem check_dropSession (h : (ranking S).Above base held 3) :
    check (ranking S) base (dropSession s) held = some held :=
  check_maybe (check_shutdown h)

theorem check_dropWorker (h : (ranking S).Above base held 4) :
    check (ranking S) base (dropWorker s) held = some held :=
  check_maybe (check_workerShutdown h)

theorem check_command (h : (ranking S).Above base held 3) :
    check (ranking S) base (command s) held = some held := by
  have hstate := h.mono (show (3 : Fin 8) ≤ 7 by decide)
  refine check_orReturn (check_under hstate rfl) (check_orReturn (check_under h rfl) ?_)
  refine check_all fun c hc ↦ ?_
  simp only [List.mem_cons, List.not_mem_nil, or_false] at hc
  rcases hc with rfl | rfl | rfl
  · exact check_send hstate
  · exact check_maybe (check_state hstate)
  · exact check_dropWorker (h.mono (by decide))

theorem check_connect (h : (ranking S).Above base held 3) :
    check (ranking S) base (connect s) held = some held := by
  have hstate := h.mono (show (3 : Fin 8) ≤ 7 by decide)
  have hworker : check (ranking S) base (dropWorker s) held = some held :=
    check_dropWorker (h.mono (by decide))
  have hslot : check (ranking S) base (.acquire (.slot s)) held = some (.slot s :: held) :=
    if_pos h
  have hclosed : check (ranking S) base (seq (release (.slot s)) (dropWorker s)) (.slot s :: held) =
      some held := by
    rw [check, check_release, Option.bind_some, hworker]
  have hsent : check (ranking S) base
      (all [release (.slot s), send s, maybe (waitConnected s), dropWorker s]) (.slot s :: held) =
      some held := by
    rw [show all [release (.slot s), send s, maybe (waitConnected s), dropWorker s] =
      .seq (release (.slot s)) (all [send s, maybe (waitConnected s), dropWorker s]) from rfl,
      check, check_release, Option.bind_some]
    refine check_all fun c hc ↦ ?_
    simp only [List.mem_cons, List.not_mem_nil, or_false] at hc
    rcases hc with rfl | rfl | rfl
    · exact check_send hstate
    · exact check_maybe (check_waiting hstate)
    · exact hworker
  have hslotState : (ranking S).Above base (.slot s :: held) 7 :=
    hstate.cons (show (3 : Fin 8) < 7 by decide)
  refine check_maybe ((check_seq rfl).trans ?_)
  rw [check, hslot, Option.bind_some,
    check_seq (check_state hslotState), check, hclosed, Option.bind_some, if_pos hsent]

/-! The calls, which begin without a lock. -/

omit [DecidableEq S] in
theorem above_zero {r : Fin 8} (h : 0 < r) : (ranking S).Above 0 [] r :=
  Ranking.above_nil h

theorem check_registry {code : LockCode S}
    (h : (ranking S).Above 0 [.registry] 3 →
      check (ranking S) 0 code [.registry] = some [.registry]) :
    check (ranking S) 0 (under .registry code) [] = some [] :=
  check_under (above_zero (show (0 : Fin 8) < 2 by decide))
    (h ((above_zero (by decide)).cons (show (2 : Fin 8) < 3 by decide)))

theorem check_get : check (ranking S) 0 get [] = some [] :=
  check_registry fun _ ↦ rfl

/-- An operation may do what ranks above its lock. -/
theorem check_withSession {operation : LockCode S}
    (h : (ranking S).Above 0 [.operation s] 3 →
      check (ranking S) 0 operation [.operation s] = some [.operation s]) :
    check (ranking S) 0 (withSession s operation) [] = some [] := by
  have habove : (ranking S).Above 0 [.operation s] 3 :=
    (above_zero (by decide)).cons (show (2 : Fin 8) < 3 by decide)
  refine check_orReturn check_get ?_
  have hoperation : (ranking S).Above 0 [] ((ranking S).lock (.operation s)) :=
    above_zero (show (0 : Fin 8) < 2 by decide)
  refine (check_seq (check_under hoperation ?_)).trans
    (check_dropSession (above_zero (by decide)))
  exact check_orReturn (check_state (habove.mono (by decide))) (h habove)

theorem check_ofSession {operation : LockCode S}
    (h : check (ranking S) 0 operation [] = some []) :
    check (ranking S) 0 (ofSession s operation) [] = some [] :=
  check_orReturn check_get ((check_seq h).trans (check_dropSession (above_zero (by decide))))

theorem check_dropSessions (sessions : List S) (h : (ranking S).Above base held 3) :
    check (ranking S) base (all (sessions.map dropSession)) held = some held := by
  refine check_all fun c hc ↦ ?_
  obtain ⟨s, -, rfl⟩ := List.mem_map.1 hc
  exact check_dropSession h

theorem check_list (sessions : List S) : check (ranking S) 0 (list sessions) [] = some [] := by
  refine check_all fun c hc ↦ ?_
  simp only [List.mem_cons, List.not_mem_nil, or_false] at hc
  rcases hc with rfl | rfl | rfl
  · exact check_get
  · refine check_all fun c hc ↦ ?_
    obtain ⟨s, -, rfl⟩ := List.mem_map.1 hc
    exact check_state (above_zero (by decide))
  · exact check_dropSessions sessions (above_zero (by decide))

theorem check_open (s : S) (same : List S) :
    check (ranking S) 0 («open» s same) [] = some [] := by
  have hdrop : check (ranking S) 0 (dropSession s) [] = some [] :=
    check_dropSession (above_zero (by decide))
  have hregistry : (ranking S).Above 0 [.registry] 3 :=
    (above_zero (by decide)).cons (show (2 : Fin 8) < 3 by decide)
  have hacquire : check (ranking S) 0 (.acquire .registry) [] = some [.registry] :=
    if_pos (above_zero (show (0 : Fin 8) < 2 by decide))
  have hclosed : check (ranking S) 0 (seq (release .registry) (dropSession s)) [.registry] =
      some [] := by
    rw [check, check_release, Option.bind_some, hdrop]
  have hfailed : check (ranking S) 0
      (all [under .registry (all (same.map dropSession)), shutdown s, dropSession s]) [] =
      some [] := by
    refine check_all fun c hc ↦ ?_
    simp only [List.mem_cons, List.not_mem_nil, or_false] at hc
    rcases hc with rfl | rfl | rfl
    · exact check_registry (check_dropSessions same)
    · exact check_shutdown (above_zero (by decide))
    · exact hdrop
  have hopened : check (ranking S) 0 (seq (info s) (dropSession s)) [] = some [] :=
    (check_seq (check_state (above_zero (by decide)))).trans hdrop
  have hconnect : check (ranking S) 0 (connect s) [] = some [] :=
    check_connect (above_zero (by decide))
  refine check_maybe ?_
  rw [check, hacquire, Option.bind_some, check, hclosed, Option.bind_some, if_pos]
  refine (check_seq (check_dropSessions same hregistry)).trans ?_
  rw [List.foldr, check, check_release, Option.bind_some]
  exact (check_seq hconnect).trans ((check_seq (check_either hfailed hopened)).trans rfl)

theorem check_close (s : S) : check (ranking S) 0 (close s) [] = some [] :=
  check_orReturn check_get ((check_seq (check_shutdown (above_zero (by decide)))).trans
    (check_dropSession (above_zero (by decide))))

theorem check_managerShutdown (sessions : List S) :
    check (ranking S) 0 (managerShutdown sessions) [] = some [] := by
  refine check_all fun c hc ↦ ?_
  simp only [List.mem_cons, List.not_mem_nil, or_false] at hc
  rcases hc with rfl | rfl | rfl
  · exact check_get
  · refine check_all fun c hc ↦ ?_
    obtain ⟨s, -, rfl⟩ := List.mem_map.1 hc
    rfl
  · refine check_all fun c hc ↦ ?_
    obtain ⟨s, -, rfl⟩ := List.mem_map.1 hc
    exact check_join (above_zero (show (0 : Fin 8) < 1 by decide))

/-- What an operation is made of. -/
theorem check_operation (h : (ranking S).Above 0 [.operation s] 3) :
    check (ranking S) 0 (command s) [.operation s] = some [.operation s] ∧
      check (ranking S) 0 (pause s) [.operation s] = some [.operation s] :=
  ⟨check_command h, check_pause (h.mono (by decide))⟩

theorem check_mouseClick (s : S) : check (ranking S) 0 (mouseClick s) [] = some [] := by
  refine check_maybe (check_withSession fun h ↦ ?_)
  obtain ⟨hcommand, hpause⟩ := check_operation h
  refine check_orReturn hcommand (check_orReturn hcommand (check_maybe ?_))
  exact check_orReturn hpause (check_orReturn hcommand (check_orReturn hcommand rfl))

theorem check_mouseDrag (s : S) : check (ranking S) 0 (mouseDrag s) [] = some [] := by
  refine check_maybe (check_withSession fun h ↦ ?_)
  obtain ⟨hcommand, hpause⟩ := check_operation h
  refine check_orReturn hcommand (check_orReturn hcommand ?_)
  exact (check_seq (check_loop (check_orReturn hcommand hpause))).trans hcommand

theorem check_sendKey (s : S) : check (ranking S) 0 (sendKey s) [] = some [] := by
  refine check_maybe (check_withSession fun h ↦ ?_)
  obtain ⟨hcommand, hpause⟩ := check_operation h
  refine check_either ?_ (check_maybe hcommand)
  refine (check_seq (check_loop (check_orReturn hcommand hpause))).trans (check_maybe ?_)
  refine check_orReturn hcommand (check_orReturn hpause (check_orReturn hcommand ?_))
  exact (check_seq (check_loop (check_orReturn hpause hcommand))).trans (check_maybe hpause)

theorem check_call (call : Call S) : check (ranking S) 0 call.code [] = some [] := by
  cases call with
  | list sessions => exact check_list sessions
  | «open» s same => exact check_open s same
  | close s => exact check_close s
  | shutdown sessions => exact check_managerShutdown sessions
  | dimensions s => exact check_ofSession (check_state (above_zero (by decide)))
  | screenshot s =>
    have hstate : check (ranking S) 0 (under (.state s) skip) [] = some [] :=
      check_state (above_zero (by decide))
    refine check_ofSession (check_orReturn (check_waiting (above_zero (by decide))) ?_)
    exact check_either (check_orReturn (check_pause (above_zero (by decide))) hstate) hstate
  | preview s =>
    exact (check_seq (check_ofSession rfl)).trans (check_loop (check_attempt check_release rfl))
  | mouseMove s | mouseScroll s => exact check_withSession check_command
  | mouseClick s => exact check_mouseClick s
  | mouseDrag s => exact check_mouseDrag s
  | typeText s =>
    refine check_withSession fun h ↦ check_loop ((check_seq (check_loop ?_)).trans
      (check_maybe (check_pause (h.mono (by decide)))))
    exact check_orReturn (check_command h) (check_command h)
  | sendKey s => exact check_sendKey s
  | resize s =>
    exact check_withSession fun h ↦
      check_orReturn (check_command h) (check_waiting (h.mono (by decide)))

/-- **All threads keep to the order.** -/
theorem check_code (calls : ℕ → List (Call S)) (t : Thread S) :
    check (ranking S) ((ranking S).thread t) (code calls t) [] = some [] := by
  have habove {base r : Fin 8} (h : base < r) : (ranking S).Above base [] r :=
    Ranking.above_nil h
  cases t with
  | caller n =>
    refine check_all fun c hc ↦ ?_
    obtain ⟨call, -, rfl⟩ := List.mem_map.1 hc
    exact check_call call
  | closer s =>
    exact (check_seq (check_shutdown (habove (show (1 : Fin 8) < 3 by decide)))).trans
      (check_dropSession (habove (show (1 : Fin 8) < 3 by decide)))
  | reader s =>
    have hhandler : check (ranking S) 6 (handleNativeOutput s) [] = some [] :=
      check_state (habove (by decide))
    exact (check_seq (check_loop hhandler)).trans (check_maybe hhandler)
  | supervisor s =>
    exact (check_seq (check_join (habove (show (5 : Fin 8) < 6 by decide)))).trans
      (check_under (habove (show (5 : Fin 8) < 7 by decide)) rfl)

end Check

end SessionLocks

open SessionLocks in
/-- **No thread of the server is stuck**, whatever is asked of it: one that has not ended waits, if
it does, for one that can go on; and one that has ended holds no lock. -/
theorem session_progress {S : Type} [DecidableEq S] (calls : ℕ → List (Call S))
    {actions : List (Thread S × Bool)} {s : LockOrder.State (Lock S) (Thread S)}
    (hrun : LockOrder.system.run (LockOrder.init (code calls) initial) actions = some s)
    (t : Thread S) :
    (s.running t = true → ∃ u, Relation.ReflTransGen s.WaitsFor t u ∧ s.CanStep u) ∧
      (s.running t = false → ∀ lock, s.holder lock ≠ some t) :=
  ⟨LockOrder.exists_canStep (check_code calls) hrun, fun ht lock hholder ↦
    absurd (LockOrder.running_of_holder (check_code calls) hrun hholder) (by simp [ht])⟩

open SessionLocks in
/-- One caller opens a session and has the registry, and another waits for it to close the same. -/
theorem session_progress_open :
    ∃ s : LockOrder.State (Lock Unit) (Thread Unit),
      LockOrder.system.run
        (LockOrder.init (code fun n ↦ [if n = 0 then .open () [] else .close ()]) initial)
        (List.replicate 5 (.caller 0, true) ++ List.replicate 3 (.caller 1, true)) = some s ∧
      s.WaitsFor (.caller 1) (.caller 0) ∧
      ∃ u, Relation.ReflTransGen s.WaitsFor (.caller 1) u ∧ s.CanStep u := by
  have hrun : ∃ s : LockOrder.State (Lock Unit) (Thread Unit), LockOrder.system.run
      (LockOrder.init (code fun n ↦ [if n = 0 then .open () [] else .close ()]) initial)
      (List.replicate 5 (.caller 0, true) ++ List.replicate 3 (.caller 1, true)) = some s ∧
      s.WaitsFor (.caller 1) (.caller 0) := ⟨_, rfl, rfl, .inl ⟨.registry, _, rfl, rfl⟩⟩
  obtain ⟨s, hs, hwaits⟩ := hrun
  exact ⟨s, hs, hwaits, (session_progress _ hs (.caller 1)).1 hwaits.1⟩

end RdpMcp
