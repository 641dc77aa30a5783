import Mathlib.Data.Fintype.EquivFin
import Mathlib.Order.Fin.Basic
import RdpMcp.Foundations.LockOrder

/-!
# The locks of a worker

A worker has a command thread, which reads commands and starts the event thread when it has
connected; the event thread, which lets FreeRDP handle what the server sends; and the threads that
FreeRDP runs its channels on. The clipboard modules, the display module and the input module have a
lock each, the output has one of its own, and under it the worker's stream has another. Here every
function is what it does about these locks: which it takes, and what it calls while it holds them.
A condition is a choice, a `return` under a lock is a branch that ends with giving it back, and what
FreeRDP is asked to send is nothing, since it comes back without waiting for any of these threads.

The modules' locks are taken **in one order**: the clipboard before its files, and the output last,
whatever is held. The event thread is waited for without any (`stopConnection`). So in any
interleaving of the threads, however they branch, each thread that has not ended waits for one that
can go on (`native_progress`).
-/

open LockOrder LockOrder.Code

namespace RdpMcp

namespace NativeLocks

inductive Lock where
  /-- `s_mutex` of `cliprdr.c`. -/
  | cliprdr
  /-- `s_mutex` of `cliprdr_file.c`. -/
  | file
  /-- `s_mutex` of `disp.c`. -/
  | disp
  /-- `s_input_mutex`. -/
  | input
  /-- `output_mutex`. -/
  | output
  /-- The lock of `Output`, in Rust. -/
  | stream
  deriving DecidableEq

inductive Thread where
  | command
  | event
  | channel (n : ℕ)
  deriving DecidableEq

/-- What a function does about locks and threads. -/
abbrev LockCode :=
  Code Lock Thread

def ranking : Ranking Lock Thread (Fin 7) where
  lock
    | .cliprdr => 3
    | .file | .disp | .input => 4
    | .output => 5
    | .stream => 6
  thread
    | .command => 0
    | .event => 1
    | .channel _ => 2

/-- A `return` under a lock, or what follows. -/
def returnOr (lock : Lock) (rest : LockCode) : LockCode :=
  either (release lock) rest

/-! ### Output -/

/-- `Output::send` and `native_output`. -/
def nativeOutput : LockCode :=
  under .stream skip

/-- `output_send`, and all that is sent by it. -/
def outputSend : LockCode :=
  maybe (under .output nativeOutput)

def outputSendBitmap : LockCode :=
  maybe (under .output nativeOutput)

def outputSendCursor : LockCode :=
  maybe (under .output nativeOutput)

/-- The functions that send a text, unless it is empty. -/
def outputSendText : LockCode :=
  maybe outputSend

def outputCleanup : LockCode :=
  maybe (under .output skip)

/-! ### Input -/

/-- `input_mouse_move` and the other input functions. -/
def inputSend : LockCode :=
  maybe (under .input skip)

/-! ### Display control -/

def sendResizeLocked : LockCode :=
  skip

def cbDispCaps : LockCode :=
  under .disp (maybe sendResizeLocked)

def dispInit : LockCode :=
  under .disp skip

def dispChannelConnected : LockCode :=
  under .disp skip

def dispChannelDisconnected : LockCode :=
  under .disp skip

def dispSetInitialLayout : LockCode :=
  maybe (under .disp skip)

def dispRequestResize : LockCode :=
  seq (acquire .disp) (returnOr .disp (returnOr .disp (seq sendResizeLocked (release .disp))))

def dispCheckPending : LockCode :=
  seq (acquire .disp) (returnOr .disp (returnOr .disp (seq sendResizeLocked (release .disp))))

/-! ### Clipboard files -/

/-- A directory is made, or the request for a size fails; then a request is sent and waited for, or
the queue is done, and the server's clipboard is unlocked **outside the lock**. -/
def startNextDownload : LockCode :=
  seq (loop (maybe outputSendText))
    (maybe (outside .file skip))

def cbServerFileContentsRequest : LockCode :=
  seq (acquire .file) <| returnOr .file <|
    -- the size, or that it cannot be told
    either (either (release .file) (release .file)) <|
    either
      -- a range
      (returnOr .file (seq (release .file) (maybe (seq (under .file skip) outputSendText))))
      (release .file)

def cbServerFileContentsResponse : LockCode :=
  seq (acquire .file) <| returnOr .file <| returnOr .file <|
    -- a failure
    either (all [outputSendText, startNextDownload, release .file]) <|
    either
      -- a size
      (either (all [outputSendText, startNextDownload, release .file])
        (all [maybe outputSendText, startNextDownload, release .file]))
      -- a range
      (either
        (seq outputSendText
          (either (all [outputSendText, startNextDownload, release .file]) (release .file)))
        (release .file))

def cbServerLockClipboardData : LockCode :=
  under .file skip

def cbServerUnlockClipboardData : LockCode :=
  under .file skip

def cliprdrFileInit : LockCode :=
  under .file skip

def cliprdrFileCleanup : LockCode :=
  maybe (under .file skip)

def cliprdrFileChannelConnected : LockCode :=
  under .file skip

def cliprdrFileChannelDisconnected : LockCode :=
  under .file skip

def cliprdrFileServerHasFiles : LockCode :=
  seq (under .file skip) (maybe (under .file skip))

def cliprdrFileHandleFgdResponse : LockCode :=
  seq (acquire .file) (returnOr .file (seq (release .file) (maybe outputSendText)))

def cliprdrFileRequestDownload : LockCode :=
  maybe <| seq (acquire .file) <| returnOr .file <| returnOr .file <|
    seq startNextDownload (release .file)

def cliprdrFileSetLocalFiles : LockCode :=
  maybe (seq (acquire .file) (returnOr .file (returnOr .file (release .file))))

def cliprdrFileHasLocalFiles : LockCode :=
  under .file skip

def cliprdrFileClearLocalFiles : LockCode :=
  under .file skip

def cliprdrFileGetFgdFormatId : LockCode :=
  under .file skip

def cliprdrFileSetFgdFormatId : LockCode :=
  under .file skip

def cliprdrFileHandleFgdRequest : LockCode :=
  seq (acquire .file) (returnOr .file (release .file))

/-! ### Clipboard -/

def sendFormatListLocked : LockCode :=
  maybe (seq cliprdrFileHasLocalFiles
    (maybe (seq cliprdrFileGetFgdFormatId cliprdrFileSetFgdFormatId)))

def cbMonitorReady : LockCode :=
  maybe (under .cliprdr sendFormatListLocked)

def cbServerFormatList : LockCode :=
  seq (under .cliprdr skip) (maybe (seq (under .cliprdr skip) cliprdrFileServerHasFiles))

def cbServerFormatListResponse : LockCode :=
  maybe (under .cliprdr skip)

def cbServerFormatDataRequest : LockCode :=
  seq cliprdrFileGetFgdFormatId
    (either cliprdrFileHandleFgdRequest
      (seq (acquire .cliprdr) (returnOr .cliprdr (release .cliprdr))))

def cbServerFormatDataResponse : LockCode :=
  either (under .cliprdr skip)
    (maybe (seq (under .cliprdr skip) (either cliprdrFileHandleFgdResponse (maybe outputSendText))))

def cliprdrInit : LockCode :=
  under .cliprdr skip

def cliprdrChannelConnected : LockCode :=
  seq (under .cliprdr skip) cliprdrFileChannelConnected

def cliprdrChannelDisconnected : LockCode :=
  seq cliprdrFileChannelDisconnected (under .cliprdr skip)

def cliprdrAnnounceFiles : LockCode :=
  under .cliprdr (seq (maybe cliprdrFileHasLocalFiles) (maybe sendFormatListLocked))

def cliprdrSetText : LockCode :=
  maybe <| seq cliprdrFileHasLocalFiles <| seq cliprdrFileClearLocalFiles <|
    seq (acquire .cliprdr) <| returnOr .cliprdr <|
      seq (maybe sendFormatListLocked) (release .cliprdr)

/-! ### Connection -/

def cbPostConnect : LockCode :=
  maybe outputSend

def cbEndPaint : LockCode :=
  maybe outputSendBitmap

def cbDesktopResize : LockCode :=
  maybe outputSend

def cbChannelConnected : LockCode :=
  oneOf [dispChannelConnected, cliprdrChannelConnected]

def cbChannelDisconnected : LockCode :=
  oneOf [dispChannelDisconnected, cliprdrChannelDisconnected]

def cbPointerSet : LockCode :=
  maybe outputSendCursor

def cbPointerSetNull : LockCode :=
  outputSend

def cbPointerSetDefault : LockCode :=
  outputSend

/-- What FreeRDP calls, any number of times and in any order. -/
def callbacks : LockCode :=
  loop <| oneOf
    [cbPostConnect, cbEndPaint, cbDesktopResize, cbChannelConnected, cbChannelDisconnected,
      cbPointerSet, cbPointerSetNull, cbPointerSetDefault, cbDispCaps, cbMonitorReady,
      cbServerFormatList, cbServerFormatListResponse, cbServerFormatDataRequest,
      cbServerFormatDataResponse, cbServerFileContentsRequest, cbServerFileContentsResponse,
      cbServerLockClipboardData, cbServerUnlockClipboardData]

section Channels

variable (channels : List ℕ)

/-- FreeRDP starts its channels while it connects. -/
def connectionConnect : LockCode :=
  all [all (channels.map fun n ↦ start (.channel n)), callbacks, maybe outputSend]

def connectionCheckEvents : LockCode :=
  callbacks

/-- FreeRDP waits for its channels when it disconnects. -/
def connectionFree : LockCode :=
  seq callbacks (all (channels.map fun n ↦ join (.channel n)))

/-! ### The library -/

def eventLoopThread : LockCode :=
  seq (loop (seq connectionCheckEvents (maybe dispCheckPending))) (maybe outputSend)

def stopConnection : LockCode :=
  seq (join .event) (maybe (connectionFree channels))

def startConnection : LockCode :=
  all [maybe (stopConnection channels), dispInit, cliprdrInit, cliprdrFileInit,
    either outputSend <| seq (connectionConnect channels) <|
      either (connectionFree channels) <| seq dispSetInitialLayout <|
        either (start .event) (seq outputSend (stopConnection channels))]

def rdpMcpNativeCommand : LockCode :=
  oneOf [outputSend, startConnection channels, stopConnection channels, inputSend,
    dispRequestResize, cliprdrSetText, seq cliprdrFileSetLocalFiles cliprdrAnnounceFiles,
    cliprdrFileRequestDownload]

def rdpMcpNativeShutdown : LockCode :=
  maybe (all [stopConnection channels, cliprdrFileCleanup, outputCleanup])

/-- `run`, which sends READY, or that a command has failed. -/
def run : LockCode :=
  seq (loop (seq (rdpMcpNativeCommand channels) (maybe nativeOutput)))
    (rdpMcpNativeShutdown channels)

def code : Thread → LockCode
  | .command => run channels
  | .event => eventLoopThread
  | .channel _ => callbacks

end Channels

/-! ### The order -/

/-- Callbacks keep to the order on any thread. -/
theorem check_callbacks : ∀ base : Fin 7, base ≤ 2 → check ranking base callbacks [] = some [] := by
  decide

section Check

variable (channels : List ℕ)

theorem check_connectionConnect :
    check ranking 0 (connectionConnect channels) [] = some [] := by
  refine check_all fun c hc ↦ ?_
  simp only [List.mem_cons, List.not_mem_nil, or_false] at hc
  rcases hc with rfl | rfl | rfl
  · refine check_all fun c hc ↦ ?_
    obtain ⟨n, -, rfl⟩ := List.mem_map.1 hc
    rfl
  · exact check_callbacks 0 (by decide)
  · decide

theorem check_connectionFree : check ranking 0 (connectionFree channels) [] = some [] := by
  refine (check_seq (check_callbacks 0 (by decide))).trans (check_all fun c hc ↦ ?_)
  obtain ⟨n, -, rfl⟩ := List.mem_map.1 hc
  exact check_join ⟨show (0 : Fin 7) < 2 by decide, fun _ h ↦ absurd h List.not_mem_nil⟩

/-- The event thread is waited for without a lock. -/
theorem check_stopConnection : check ranking 0 (stopConnection channels) [] = some [] :=
  (check_seq (by decide)).trans (check_maybe (check_connectionFree channels))

theorem check_startConnection : check ranking 0 (startConnection channels) [] = some [] := by
  refine check_all fun c hc ↦ ?_
  simp only [List.mem_cons, List.not_mem_nil, or_false] at hc
  rcases hc with rfl | rfl | rfl | rfl | rfl
  · exact check_maybe (check_stopConnection channels)
  · decide
  · decide
  · decide
  · refine check_either (by decide) ?_
    refine (check_seq (check_connectionConnect channels)).trans ?_
    refine check_either (check_connectionFree channels) ?_
    refine (check_seq (by decide)).trans (check_either rfl ?_)
    exact (check_seq (by decide)).trans (check_stopConnection channels)

theorem check_rdpMcpNativeCommand :
    check ranking 0 (rdpMcpNativeCommand channels) [] = some [] := by
  refine check_oneOf fun c hc ↦ ?_
  simp only [List.mem_cons, List.not_mem_nil, or_false] at hc
  rcases hc with rfl | rfl | rfl | rfl | rfl | rfl | rfl | rfl
  · decide
  · exact check_startConnection channels
  · exact check_stopConnection channels
  all_goals decide

theorem check_rdpMcpNativeShutdown :
    check ranking 0 (rdpMcpNativeShutdown channels) [] = some [] := by
  refine check_maybe (check_all fun c hc ↦ ?_)
  simp only [List.mem_cons, List.not_mem_nil, or_false] at hc
  rcases hc with rfl | rfl | rfl
  · exact check_stopConnection channels
  · decide
  · decide

/-- **All threads keep to the order.** -/
theorem check_code (t : Thread) :
    check ranking (ranking.thread t) (code channels t) [] = some [] := by
  cases t with
  | command =>
    refine (check_seq (check_loop ?_)).trans (check_rdpMcpNativeShutdown channels)
    exact (check_seq (check_rdpMcpNativeCommand channels)).trans (by decide)
  | event => exact (by decide : check ranking 1 eventLoopThread [] = some [])
  | channel n => exact check_callbacks 2 (by decide)

end Check

end NativeLocks

open NativeLocks in
/-- **No thread of a worker is stuck**, as long as FreeRDP's own functions do not wait for the
worker's threads: one that has not ended waits, if it does, for one that can go on; and one that has
ended holds no lock. -/
theorem native_progress (channels : List ℕ) {actions : List (Thread × Bool)}
    {s : LockOrder.State Lock Thread}
    (hrun : LockOrder.system.run (LockOrder.init (code channels) (· = .command)) actions = some s)
    (t : Thread) :
    (s.running t = true → ∃ u, Relation.ReflTransGen s.WaitsFor t u ∧ s.CanStep u) ∧
      (s.running t = false → ∀ lock, s.holder lock ≠ some t) :=
  ⟨LockOrder.exists_canStep (check_code channels) hrun, fun ht lock hholder ↦
    absurd (LockOrder.running_of_holder (check_code channels) hrun hholder) (by simp [ht])⟩

open NativeLocks in
/-- The command thread connects, which starts a channel, and a size is announced on both threads:
the command thread has the output, and the channel is about to take it. -/
def twoAnnouncements : List (Thread × Bool) :=
  (List.replicate 3 true ++ [false] ++ List.replicate 2 true ++ [false] ++ List.replicate 20 true ++
    [false] ++ List.replicate 12 true).map (.command, ·) ++ List.replicate 5 (.channel 0, true)

open NativeLocks in
/-- The channel waits for the command thread, which can go on. -/
theorem native_progress_twoAnnouncements :
    ∃ s : LockOrder.State Lock Thread,
      LockOrder.system.run (LockOrder.init (code [0]) (· = .command)) twoAnnouncements = some s ∧
      s.holder .output = some .command ∧ ¬s.CanStep (.channel 0) ∧
      s.WaitsFor (.channel 0) .command ∧
      ∃ u, Relation.ReflTransGen s.WaitsFor (.channel 0) u ∧ s.CanStep u := by
  have hrun : ∃ s : LockOrder.State Lock Thread,
      LockOrder.system.run (LockOrder.init (code [0]) (· = .command)) twoAnnouncements = some s ∧
      s.holder .output = some .command ∧ (∃ rest, s.todo (.channel 0) = .acquire .output :: rest) ∧
      s.started (.channel 0) = true :=
    ⟨_, rfl, rfl, ⟨_, rfl⟩, rfl⟩
  obtain ⟨s, hs, hholder, ⟨rest, htodo⟩, hstarted⟩ := hrun
  have hrunning : s.running (.channel 0) = true := by
    rw [LockOrder.State.running, hstarted, htodo]
    rfl
  refine ⟨s, hs, hholder, ?_, ⟨hrunning, .inl ⟨_, rest, htodo, hholder⟩⟩,
    (native_progress [0] hs (.channel 0)).1 hrunning⟩
  rintro ⟨bit, s', hstep⟩
  have hnone : s.next (.channel 0) bit (s.todo (.channel 0)) = none := by
    rw [htodo, LockOrder.State.next, hholder]
    exact if_neg (Option.some_ne_none _)
  exact absurd (((if_pos hstarted).symm.trans hstep).symm.trans hnone) (Option.some_ne_none _)

end RdpMcp
