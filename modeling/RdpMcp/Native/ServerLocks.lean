import Mathlib.Data.List.Count
import Mathlib.Data.List.Nodup
import RdpMcp.Foundations.History
import RdpMcp.Foundations.StepSystem
import RdpMcp.Native.DownloadHistory

/-!
# Locks on the server's clipboard

When the server announces files, its clipboard is locked with a new number, which the requests for
contents carry; it is unlocked when the next files are announced, or when the queue of downloads is
finished. The number and the flag of the lock change **under the module's lock, and the messages are
sent outside**: by the event thread, which handles one message of the server after the other, and by
the command thread, in whose call the queue may finish too. So the messages of the two threads mix.

What is locked is read off the log of the messages (`Held`). The invariant counts: every lock that
has been taken and not released is either recorded in the state, or it is about to be released by
one of the threads (`ServerLocks.held`). Then every unlocking, and every request that carries a
number, finds it locked (`serverLocks_paired`), in any interleaving. Numbers begin again after
`2 ^ 32` announcements.
-/

open History

namespace RdpMcp

/-! ### The log -/

/-- A message to the server. -/
inductive ServerPdu where
  | lock (clipDataId : UInt32)
  | unlock (clipDataId : UInt32)
  | contents (request : ContentsRequest)
  deriving DecidableEq

/-- More locks than unlockings of a number have been sent. -/
def Held (log : List ServerPdu) (clipDataId : UInt32) : Prop :=
  log.count (.unlock clipDataId) < log.count (.lock clipDataId)

/-- A message is in its place: what is unlocked is locked, and so is what a request refers to. -/
def Permitted (log : List ServerPdu) : ServerPdu → Prop
  | .lock _ => True
  | .unlock clipDataId => Held log clipDataId
  | .contents request => request.haveClipDataId = true → Held log request.clipDataId

/-! ### Sections -/

/-- The request that is handed to the channel. -/
def FileEffect.asked : FileEffect → Option ContentsRequest
  | request sent _ => some sent
  | _ => none

/-- The requests that have been handed to the channel. -/
def requestsOf (history : List FileEffect) : List ContentsRequest :=
  history.filterMap FileEffect.asked

theorem requestsOf_concat (history : List FileEffect) (effect : FileEffect) :
    requestsOf (history ++ [effect]) = requestsOf history ++ effect.asked.toList := by
  rw [requestsOf, List.filterMap_append]
  cases h : effect.asked with
  | none => simp [requestsOf, h]
  | some request => simp [requestsOf, h]

namespace CliprdrFile

variable {s t u : CliprdrFile}

/-- Requests for contents have been sent, with the lock that was recorded at the beginning. -/
def Asks (s t : CliprdrFile) : Prop :=
  ∃ requests, requestsOf t.history = requestsOf s.history ++ requests ∧
    ∀ request ∈ requests,
      request.haveClipDataId = s.ourLockActive ∧ request.clipDataId = s.ourLockId

/-- What leaves the lock as it is. -/
structure Steady (s t : CliprdrFile) : Prop where
  ourLockId : t.ourLockId = s.ourLockId
  ourLockActive : t.ourLockActive = s.ourLockActive
  nextLockId : t.nextLockId = s.nextLockId
  asks : Asks s t

/-- What a whole section does: at its end the lock may be released. -/
structure Section (s t : CliprdrFile) : Prop where
  ourLockId : t.ourLockId = s.ourLockId
  ourLockActive : t.ourLockActive = true → s.ourLockActive = true
  nextLockId : t.nextLockId = s.nextLockId
  asks : Asks s t

theorem asks_of_history_eq (h : t.history = s.history) : Asks s t :=
  ⟨[], by rw [h, List.append_nil], nofun⟩

theorem asks_of_history_concat {effect : FileEffect} (hnone : effect.asked = none)
    (h : t.history = s.history ++ [effect]) : Asks s t :=
  ⟨[], by rw [h, requestsOf_concat, hnone]; rfl, nofun⟩

theorem Steady.refl (s : CliprdrFile) : Steady s s :=
  ⟨rfl, rfl, rfl, asks_of_history_eq rfl⟩

theorem Asks.trans (hst : Asks s t) (hid : t.ourLockId = s.ourLockId)
    (hactive : t.ourLockActive = s.ourLockActive) (htu : Asks t u) : Asks s u := by
  obtain ⟨requests, hrequests, hlock⟩ := hst
  obtain ⟨requests', hrequests', hlock'⟩ := htu
  refine ⟨requests ++ requests', by rw [hrequests', hrequests, List.append_assoc], ?_⟩
  intro request hmem
  rcases List.mem_append.1 hmem with hmem | hmem
  · exact hlock request hmem
  · rw [← hid, ← hactive]
    exact hlock' request hmem

theorem Steady.trans (hst : Steady s t) (htu : Steady t u) : Steady s u :=
  ⟨htu.ourLockId.trans hst.ourLockId, htu.ourLockActive.trans hst.ourLockActive,
    htu.nextLockId.trans hst.nextLockId, hst.asks.trans hst.ourLockId hst.ourLockActive htu.asks⟩

theorem Steady.isSection (h : Steady s t) : Section s t :=
  ⟨h.ourLockId, fun htrue ↦ h.ourLockActive.symm.trans htrue, h.nextLockId, h.asks⟩

/-- **Only the end of a section** releases the lock. -/
theorem Steady.append (hst : Steady s t) (htu : Section t u) : Section s u :=
  ⟨htu.ourLockId.trans hst.ourLockId,
    fun htrue ↦ hst.ourLockActive.symm.trans (htu.ourLockActive htrue),
    htu.nextLockId.trans hst.nextLockId, hst.asks.trans hst.ourLockId hst.ourLockActive htu.asks⟩

theorem steady_emit (s : CliprdrFile) {effect : FileEffect} (hnone : effect.asked = none) :
    Steady s (s.emit effect) :=
  ⟨rfl, rfl, rfl, asks_of_history_concat hnone rfl⟩

theorem steady_setEntry (s : CliprdrFile) (i : ℕ) (entry : DownloadEntry) :
    Steady s (s.setEntry i entry) :=
  ⟨rfl, rfl, rfl, asks_of_history_eq rfl⟩

theorem steady_writeFile (s : CliprdrFile) (path : Path) (contents : List UInt8) :
    Steady s (s.writeFile path contents) :=
  ⟨rfl, rfl, rfl, asks_of_history_eq rfl⟩

theorem steady_advance (s : CliprdrFile) : Steady s s.advance :=
  ⟨rfl, rfl, rfl, asks_of_history_eq rfl⟩

/-- **A request** carries the lock. -/
theorem steady_send (s : CliprdrFile) (fileIndex : ℕ) (kind : ContentsKind) (offset : UInt64)
    (cbRequested : UInt32) (accepted : Bool) :
    Steady s (s.sendFileContentsRequest fileIndex kind offset cbRequested accepted).2 := by
  rw [sendFileContentsRequest]
  split
  · exact .refl s
  · have hasks {t : CliprdrFile} (h : t.history = s.history ++
        [.request (s.contentsRequest fileIndex kind offset cbRequested) accepted]) : Asks s t := by
      refine ⟨[s.contentsRequest fileIndex kind offset cbRequested], ?_, ?_⟩
      · rw [h, requestsOf_concat]
        rfl
      · intro request hmem
        obtain rfl := List.mem_singleton.1 hmem
        exact ⟨rfl, rfl⟩
    cases accepted with
    | true => exact ⟨rfl, rfl, rfl, hasks rfl⟩
    | false => exact ⟨rfl, rfl, rfl, hasks rfl⟩

theorem section_finish (s : CliprdrFile) : Section s s.finish :=
  ⟨rfl, fun htrue ↦ (Bool.and_eq_true_iff.1 htrue).1, rfl, asks_of_history_concat rfl rfl⟩

theorem steady_giveUp (s : CliprdrFile) (fileIndex : ℕ) : Steady s (s.giveUp fileIndex) :=
  ⟨rfl, rfl, rfl, asks_of_history_concat rfl rfl⟩

/-- **The loop.** -/
theorem section_startNext (accepts : ℕ → Bool) (n : ℕ) (s : CliprdrFile) :
    Section s (startNext accepts n s) := by
  refine startNext_rule (motive := Section) (fun s ↦ ?_) (fun s entry _ _ _ _ ↦ ?_)
    (fun s t h ↦ ?_) (fun s t entry _ h ↦ ?_) (fun s t entry _ h ↦ ?_) n s
  · exact section_finish s
  · exact (steady_send s _ _ _ _ _).isSection
  · exact (steady_advance s).append h
  · have hset := steady_setEntry s s.current { entry with complete := true }
    exact ((hset.trans (steady_emit _ rfl)).trans (steady_advance _)).append h
  · have hsend := steady_send s entry.fileIndex .size 0 8 (accepts entry.fileIndex)
    exact ((hsend.trans (steady_giveUp _ _)).trans (steady_advance _)).append h

theorem section_finishEntry {i : ℕ} {entry : DownloadEntry} {report : CliprdrFile → CliprdrFile}
    (hreport : ∀ u, Steady u (report u)) (accepts : ℕ → Bool) (s : CliprdrFile) :
    Section s (s.finishEntry i entry report accepts) :=
  (((steady_setEntry s i _).trans (hreport _)).trans (steady_advance _)).append
    (section_startNext accepts _ _)

/-- **An answer.** -/
theorem section_receive (s : CliprdrFile) (i : ℕ) (entry : DownloadEntry)
    (response : ContentsResponse) (surroundings : Surroundings) :
    Section s (s.receive i entry response surroundings) := by
  rw [receive]
  split
  · exact section_finishEntry (fun u ↦ steady_emit u rfl) _ s
  · split
    · rw [receiveSize]
      split
      · refine Steady.append ?_ (section_finishEntry (fun u ↦ steady_emit u rfl) _ _)
        split
        · exact steady_writeFile s _ _
        · exact .refl s
      · split
        · exact ((steady_writeFile s _ _).trans (steady_setEntry _ _ _)).append
            (section_startNext _ _ _)
        · exact section_finishEntry (fun u ↦ steady_emit u rfl) _ s
    · split
      · exact (Steady.refl s).isSection
      · exact (Steady.refl s).isSection
      · split
        · rw [receiveRange]
          have hreported (contents : List UInt8) (fileIndex : ℕ) (received total : UInt64)
              (files : ℕ) : Steady s ((s.writeFile entry.tempPath contents).emit
                (.progress fileIndex received total files)) :=
            (steady_writeFile s _ _).trans (steady_emit _ rfl)
          dsimp only
          split
          · exact (hreported _ _ _ _ _).append
              (section_finishEntry (fun u ↦ steady_emit u rfl) _ _)
          · exact (((hreported _ _ _ _ _).trans (steady_setEntry _ _ _)).trans
              (steady_send _ _ _ _ _ _)).isSection
        · exact (Steady.refl s).isSection

theorem section_fileContentsResponse (s : CliprdrFile) (response : ContentsResponse)
    (surroundings : Surroundings) : Section s (s.fileContentsResponse response surroundings) := by
  rw [fileContentsResponse]
  split
  · exact (Steady.refl s).isSection
  · split
    · exact (Steady.refl s).isSection
    · exact section_receive s _ _ _ _

theorem section_requestDownload (s : CliprdrFile) (tempDir : Path) (accepts : ℕ → Bool) :
    Section s (s.requestDownload tempDir accepts) := by
  rw [requestDownload]
  split
  · exact (Steady.refl s).isSection
  · refine Steady.append ?_ (section_startNext accepts _ _)
    exact ⟨rfl, rfl, rfl, asks_of_history_concat rfl rfl⟩

end CliprdrFile

/-! ### The two threads -/

/-- Where the event thread is. -/
inductive EventStage where
  | idle
  /-- In `cliprdr_file_server_has_files`, behind its section, with a lock to release. -/
  | unlocking (oldLockId newLockId : UInt32)
  | locking (newLockId : UInt32)
  | requesting
  /-- The request for the descriptors has failed. -/
  | clearing
  /-- In `start_next_download`, with the lock to release. -/
  | finishing (lockId : UInt32)
  deriving DecidableEq

/-- The file module, the two threads, and what they have sent. -/
structure ServerLocks where
  file : CliprdrFile
  event : EventStage := .idle
  /-- The lock that the command thread is about to release, in `start_next_download`. -/
  command : Option UInt32 := none
  log : List ServerPdu := []

/-- What a thread does next: a section, or a message. -/
inductive LockAction where
  | serverHasFiles
  | fgdResponse (descriptors : List FileDescriptor)
  | contentsResponse (response : ContentsResponse) (surroundings : Surroundings)
  /-- The event thread goes on; `sent` says whether its request for the descriptors is sent. -/
  | eventContinues (sent : Bool)
  | requestDownload (tempDir : Path) (accepts : ℕ → Bool)
  /-- The command thread goes on. -/
  | commandContinues

/-- The requests on the way from one state to another. -/
def requestsBetween (s t : CliprdrFile) : List ServerPdu :=
  ((requestsOf t.history).drop (requestsOf s.history).length).map .contents

/-- The lock that a section has left to release. -/
def releasedLock (s t : CliprdrFile) : Option UInt32 :=
  if s.ourLockActive && !t.ourLockActive then some s.ourLockId else none

namespace ServerLocks

/-- A section in which contents may be asked for. -/
def afterSection (s : ServerLocks) (file : CliprdrFile) : ServerLocks :=
  { s with file, log := s.log ++ requestsBetween s.file file }

def send (s : ServerLocks) (pdu : ServerPdu) : ServerLocks :=
  { s with log := s.log ++ [pdu] }

end ServerLocks

def lockSystem : StepSystem ServerLocks LockAction where
  step s
    | .serverHasFiles =>
      match s.event with
      | .idle =>
        let lockId := s.file.nextLockId
        some
          { s with
            file := s.file.serverHasFiles
            event :=
              if s.file.ourLockActive then .unlocking s.file.ourLockId lockId
              else .locking lockId }
      | _ => none
    | .fgdResponse descriptors =>
      match s.event with
      | .idle => some { s with file := s.file.handleFgdResponse descriptors }
      | _ => none
    | .contentsResponse response surroundings =>
      match s.event with
      | .idle =>
        let file := s.file.fileContentsResponse response surroundings
        some
          { s.afterSection file with
            event :=
              match releasedLock s.file file with
              | some lockId => .finishing lockId
              | none => .idle }
      | _ => none
    | .eventContinues sent =>
      match s.event with
      | .idle => none
      | .unlocking oldLockId newLockId =>
        some { s.send (.unlock oldLockId) with event := .locking newLockId }
      | .locking newLockId => some { s.send (.lock newLockId) with event := .requesting }
      | .requesting => some { s with event := if sent then .idle else .clearing }
      | .clearing => some { s with event := .idle }
      | .finishing lockId => some { s.send (.unlock lockId) with event := .idle }
    | .requestDownload tempDir accepts =>
      match s.command with
      | none =>
        let file := s.file.requestDownload tempDir accepts
        some { s.afterSection file with command := releasedLock s.file file }
      | some _ => none
    | .commandContinues =>
      match s.command with
      | none => none
      | some lockId => some { s.send (.unlock lockId) with command := none }

/-! ### What is held -/

/-- The lock that is recorded. -/
def CliprdrFile.ownLock (s : CliprdrFile) : List UInt32 :=
  if s.ourLockActive then [s.ourLockId] else []

/-- The locks that the event thread knows to be held. -/
def EventStage.held (ownLock : List UInt32) : EventStage → List UInt32
  | unlocking oldLockId _ => [oldLockId]
  | locking _ => []
  | finishing lockId => lockId :: ownLock
  | idle | requesting | clearing => ownLock

/-- The lock that the event thread is about to take. -/
def EventStage.pendingLock : EventStage → List UInt32
  | unlocking _ newLockId | locking newLockId => [newLockId]
  | _ => []

namespace ServerLocks

/-- The locks that are held. -/
def held (s : ServerLocks) : List UInt32 :=
  s.event.held s.file.ownLock ++ s.command.toList

/-- **The locks are paired.** -/
structure Paired (s : ServerLocks) : Prop where
  permitted : Each Permitted s.log
  /-- Every lock that has not been released is held. -/
  count : ∀ clipDataId, s.log.count (.lock clipDataId) =
    s.log.count (.unlock clipDataId) + s.held.count clipDataId
  /-- Until the new lock is taken, there is nothing to download. -/
  announcing : ∀ lockId ∈ s.event.pendingLock,
    s.file.descriptors = [] ∧ s.file.ourLockActive = true ∧ s.file.ourLockId = lockId

/-- No operation is in progress. -/
def Idle (s : ServerLocks) : Prop :=
  s.event = .idle ∧ s.command = none

variable {s t : ServerLocks}

theorem Paired.held_of_mem (h : s.Paired) {clipDataId : UInt32} (hmem : clipDataId ∈ s.held) :
    Held s.log clipDataId := by
  have hpos : 0 < s.held.count clipDataId := List.count_pos_iff.2 hmem
  have hcount := h.count clipDataId
  rw [Held]
  omega

/-! ### Messages -/

theorem count_requestsBetween (s t : CliprdrFile) (pdu : ServerPdu)
    (hpdu : ∀ request, pdu ≠ .contents request) : (requestsBetween s t).count pdu = 0 := by
  refine List.count_eq_zero.2 fun hmem ↦ ?_
  obtain ⟨request, -, heq⟩ := List.mem_map.1 hmem
  exact hpdu request heq.symm

/-- Requests for contents change nothing about what is held. -/
theorem held_append (log : List ServerPdu) {s t : CliprdrFile} {pre : List ServerPdu}
    (hpre : pre <+: requestsBetween s t) {clipDataId : UInt32} (h : Held log clipDataId) :
    Held (log ++ pre) clipDataId := by
  have hcount (pdu : ServerPdu) (hpdu : ∀ request, pdu ≠ .contents request) :
      pre.count pdu = 0 := by
    have hle := hpre.sublist.count_le pdu
    rw [count_requestsBetween s t pdu hpdu] at hle
    omega
  rw [Held, List.count_append, List.count_append, hcount _ (by simp), hcount _ (by simp)]
  exact h

/-- The requests of a section. -/
theorem mem_requestsBetween {s t : CliprdrFile} (h : s.Asks t) {pdu : ServerPdu}
    (hmem : pdu ∈ requestsBetween s t) : ∃ request, pdu = .contents request ∧
      request.haveClipDataId = s.ourLockActive ∧ request.clipDataId = s.ourLockId := by
  obtain ⟨requests, hrequests, hlock⟩ := h
  rw [requestsBetween, hrequests, List.drop_left] at hmem
  obtain ⟨request, hrequest, rfl⟩ := List.mem_map.1 hmem
  exact ⟨request, rfl, hlock request hrequest⟩

/-- **A lock is released**: it has been held. -/
theorem Paired.unlock (h : s.Paired) {lockId : UInt32} (hlog : t.log = s.log ++ [.unlock lockId])
    (hheld : s.held.Perm (lockId :: t.held))
    (hannouncing : ∀ lockId ∈ t.event.pendingLock, t.file.descriptors = [] ∧
      t.file.ourLockActive = true ∧ t.file.ourLockId = lockId) : t.Paired where
  permitted := by
    rw [hlog]
    exact h.permitted.concat (h.held_of_mem (hheld.mem_iff.2 List.mem_cons_self))
  count clipDataId := by
    have hcount := h.count clipDataId
    rw [hheld.count_eq, List.count_cons] at hcount
    rw [hlog, List.count_append, List.count_append, hcount]
    by_cases hid : lockId = clipDataId
    · simp [hid]
      omega
    · simp [hid]
  announcing := hannouncing

/-- **The new lock is taken.** -/
theorem Paired.lock (h : s.Paired) {lockId : UInt32} (hlog : t.log = s.log ++ [.lock lockId])
    (hheld : t.held.Perm (lockId :: s.held))
    (hannouncing : ∀ lockId ∈ t.event.pendingLock, t.file.descriptors = [] ∧
      t.file.ourLockActive = true ∧ t.file.ourLockId = lockId) : t.Paired where
  permitted := by
    rw [hlog]
    exact h.permitted.concat trivial
  count clipDataId := by
    have hcount := h.count clipDataId
    rw [hheld.count_eq, List.count_cons, hlog, List.count_append, List.count_append, hcount]
    by_cases hid : lockId = clipDataId
    · simp [hid]
      omega
    · simp [hid]
  announcing := hannouncing

/-- **A section**: its requests carry the lock that is recorded, which is held. -/
theorem Paired.afterSection (h : s.Paired) {file : CliprdrFile} (hsection : s.file.Section file)
    (hown : ∀ lockId ∈ s.file.ownLock, lockId ∈ s.held)
    (hlog : t.log = s.log ++ requestsBetween s.file file) (hheld : t.held.Perm s.held)
    (hannouncing : ∀ lockId ∈ t.event.pendingLock, t.file.descriptors = [] ∧
      t.file.ourLockActive = true ∧ t.file.ourLockId = lockId) : t.Paired where
  permitted := by
    rw [hlog]
    refine h.permitted.append fun pre pdu post heq ↦ ?_
    have hmem : pdu ∈ requestsBetween s.file file := by
      rw [heq]
      exact List.mem_append_right _ List.mem_cons_self
    obtain ⟨request, rfl, hactive, hid⟩ := mem_requestsBetween hsection.asks hmem
    intro hhave
    have hmem : s.file.ourLockId ∈ s.held := by
      refine hown _ ?_
      rw [CliprdrFile.ownLock, hactive.symm.trans hhave]
      exact List.mem_singleton_self _
    rw [hid]
    exact held_append s.log (heq ▸ List.prefix_append _ _) (h.held_of_mem hmem)
  count clipDataId := by
    rw [hlog, List.count_append, List.count_append, hheld.count_eq, h.count clipDataId,
      count_requestsBetween _ _ _ (by simp), count_requestsBetween _ _ _ (by simp)]
    omega
  announcing := hannouncing

/-- Nothing is sent, and the same locks are held. -/
theorem Paired.of_held (h : s.Paired) (hlog : t.log = s.log) (hheld : t.held.Perm s.held)
    (hannouncing : ∀ lockId ∈ t.event.pendingLock, t.file.descriptors = [] ∧
      t.file.ourLockActive = true ∧ t.file.ourLockId = lockId) : t.Paired where
  permitted := by
    rw [hlog]
    exact h.permitted
  count clipDataId := by
    rw [hlog, hheld.count_eq]
    exact h.count clipDataId
  announcing := hannouncing

/-! ### One step -/

/-- What a section leaves to release is what it does not record any more. -/
theorem releasedLock_append_ownLock {s t : CliprdrFile} (h : s.Section t) :
    (releasedLock s t).toList ++ t.ownLock = s.ownLock := by
  have hactive := h.ourLockActive
  rw [releasedLock, CliprdrFile.ownLock, CliprdrFile.ownLock, h.ourLockId]
  cases hs : s.ourLockActive with
  | true => cases t.ourLockActive <;> rfl
  | false =>
    cases ht : t.ourLockActive with
    | true => cases hs.symm.trans (hactive ht)
    | false => rfl

/-- The event thread knows the lock that is recorded, unless it is still to be taken. -/
theorem held_eq_append {event : EventStage} (h : event.pendingLock = []) (ownLock : List UInt32) :
    event.held ownLock = event.held [] ++ ownLock := by
  cases event with
  | unlocking => cases h
  | locking => cases h
  | _ => rfl

theorem requestsBetween_self (s : CliprdrFile) : requestsBetween s s = [] := by
  rw [requestsBetween, List.drop_length, List.map_nil]

theorem releasedLock_self (s : CliprdrFile) : releasedLock s s = none := by
  rw [releasedLock, Bool.and_not_self]
  exact if_neg Bool.false_ne_true

/-- **The command thread's section.** -/
theorem Paired.requestDownload (h : s.Paired) (hcommand : s.command = none) (tempDir : Path)
    (accepts : ℕ → Bool) :
    ({ s.afterSection (s.file.requestDownload tempDir accepts) with
      command := releasedLock s.file (s.file.requestDownload tempDir accepts) } :
        ServerLocks).Paired := by
  have hsection := CliprdrFile.section_requestDownload s.file tempDir accepts
  rcases List.eq_nil_or_concat s.event.pendingLock with hpending | ⟨pending, lockId, hpending⟩
  · refine h.afterSection hsection (fun lockId hmem ↦ ?_) rfl ?_ ?_
    · rw [held, held_eq_append hpending]
      exact List.mem_append_left _ (List.mem_append_right _ hmem)
    · show (s.event.held (s.file.requestDownload tempDir accepts).ownLock ++
        (releasedLock s.file (s.file.requestDownload tempDir accepts)).toList).Perm s.held
      rw [held, hcommand, held_eq_append hpending, held_eq_append hpending s.file.ownLock,
        ← releasedLock_append_ownLock hsection, List.append_assoc, Option.toList_none,
        List.append_nil]
      exact List.perm_append_comm.append_left _
    · intro lockId hmem
      have hmem' : lockId ∈ s.event.pendingLock := hmem
      rw [hpending] at hmem'
      cases hmem'
  · -- the new lock is still to be taken
    have hdescriptors : s.file.descriptors = [] :=
      (h.announcing lockId (by rw [hpending]; simp)).1
    rw [CliprdrFile.requestDownload_of_descriptors_eq_nil hdescriptors]
    refine h.of_held ?_ ?_ h.announcing
    · show s.log ++ requestsBetween s.file s.file = s.log
      rw [requestsBetween_self, List.append_nil]
    · show (s.event.held s.file.ownLock ++ (releasedLock s.file s.file).toList).Perm s.held
      rw [releasedLock_self, held, hcommand]

/-- **What a step does**, and where its thread stands before it. -/
inductive LockStep (s : ServerLocks) : LockAction → ServerLocks → Prop
  | serverHasFiles (hevent : s.event = .idle) :
    LockStep s .serverHasFiles { s with
      file := s.file.serverHasFiles
      event := if s.file.ourLockActive then .unlocking s.file.ourLockId s.file.nextLockId
        else .locking s.file.nextLockId }
  | fgdResponse (descriptors : List FileDescriptor) (hevent : s.event = .idle) :
    LockStep s (.fgdResponse descriptors) { s with file := s.file.handleFgdResponse descriptors }
  | contentsResponse (response : ContentsResponse) (surroundings : Surroundings)
      (hevent : s.event = .idle) :
    LockStep s (.contentsResponse response surroundings)
      { s.afterSection (s.file.fileContentsResponse response surroundings) with
        event := (releasedLock s.file (s.file.fileContentsResponse response surroundings)).elim
          .idle .finishing }
  | unlock (sent : Bool) (oldLockId newLockId : UInt32)
      (hevent : s.event = .unlocking oldLockId newLockId) :
    LockStep s (.eventContinues sent)
      { s.send (.unlock oldLockId) with event := .locking newLockId }
  | lock (sent : Bool) (newLockId : UInt32) (hevent : s.event = .locking newLockId) :
    LockStep s (.eventContinues sent) { s.send (.lock newLockId) with event := .requesting }
  | request (sent : Bool) (hevent : s.event = .requesting) :
    LockStep s (.eventContinues sent) { s with event := if sent then .idle else .clearing }
  | clear (sent : Bool) (hevent : s.event = .clearing) :
    LockStep s (.eventContinues sent) { s with event := .idle }
  | finish (sent : Bool) (lockId : UInt32) (hevent : s.event = .finishing lockId) :
    LockStep s (.eventContinues sent) { s.send (.unlock lockId) with event := .idle }
  | requestDownload (tempDir : Path) (accepts : ℕ → Bool) (hcommand : s.command = none) :
    LockStep s (.requestDownload tempDir accepts)
      { s.afterSection (s.file.requestDownload tempDir accepts) with
        command := releasedLock s.file (s.file.requestDownload tempDir accepts) }
  | commandFinish (lockId : UInt32) (hcommand : s.command = some lockId) :
    LockStep s .commandContinues { s.send (.unlock lockId) with command := none }

theorem lockStep_of_step {action : LockAction} (hstep : lockSystem.step s action = some t) :
    LockStep s action t := by
  rw [lockSystem] at hstep
  cases action with
  | serverHasFiles =>
    dsimp only at hstep
    split at hstep
    case h_1 hevent =>
      obtain rfl := Option.some.inj hstep
      exact .serverHasFiles hevent
    case h_2 => cases hstep
  | fgdResponse descriptors =>
    dsimp only at hstep
    split at hstep
    case h_1 hevent =>
      obtain rfl := Option.some.inj hstep
      exact .fgdResponse descriptors hevent
    case h_2 => cases hstep
  | contentsResponse response surroundings =>
    dsimp only at hstep
    split at hstep
    case h_1 hevent =>
      obtain rfl := Option.some.inj hstep
      have hlockStep := LockStep.contentsResponse response surroundings hevent
      cases hreleased :
          releasedLock s.file (s.file.fileContentsResponse response surroundings) with
      | none =>
        rw [hreleased] at hlockStep
        exact hlockStep
      | some lockId =>
        rw [hreleased] at hlockStep
        exact hlockStep
    case h_2 => cases hstep
  | eventContinues sent =>
    dsimp only at hstep
    split at hstep
    case h_1 => cases hstep
    case h_2 oldLockId newLockId hevent =>
      obtain rfl := Option.some.inj hstep
      exact .unlock sent oldLockId newLockId hevent
    case h_3 newLockId hevent =>
      obtain rfl := Option.some.inj hstep
      exact .lock sent newLockId hevent
    case h_4 hevent =>
      obtain rfl := Option.some.inj hstep
      exact .request sent hevent
    case h_5 hevent =>
      obtain rfl := Option.some.inj hstep
      exact .clear sent hevent
    case h_6 lockId hevent =>
      obtain rfl := Option.some.inj hstep
      exact .finish sent lockId hevent
  | requestDownload tempDir accepts =>
    dsimp only at hstep
    split at hstep
    case h_1 hcommand =>
      obtain rfl := Option.some.inj hstep
      exact .requestDownload tempDir accepts hcommand
    case h_2 => cases hstep
  | commandContinues =>
    dsimp only at hstep
    split at hstep
    case h_1 => cases hstep
    case h_2 lockId hcommand =>
      obtain rfl := Option.some.inj hstep
      exact .commandFinish lockId hcommand

/-- **One step.** -/
theorem paired_step {action : LockAction} (h : s.Paired)
    (hstep : lockSystem.step s action = some t) : t.Paired := by
  cases lockStep_of_step hstep with
  | serverHasFiles hevent =>
    refine h.of_held rfl ?_ fun lockId hmem ↦ ?_
    · have hheld : s.held =
          (if s.file.ourLockActive then [s.file.ourLockId] else []) ++ s.command.toList := by
        rw [held, hevent]
        rfl
      rw [hheld]
      show (EventStage.held s.file.serverHasFiles.ownLock
        (if s.file.ourLockActive then _ else _) ++ s.command.toList).Perm _
      cases s.file.ourLockActive <;> exact .refl _
    · cases hactive : s.file.ourLockActive with
      | true =>
        rw [hactive] at hmem
        exact ⟨rfl, rfl, (List.mem_singleton.1 hmem).symm⟩
      | false =>
        rw [hactive] at hmem
        exact ⟨rfl, rfl, (List.mem_singleton.1 hmem).symm⟩
  | fgdResponse descriptors hevent =>
    refine h.of_held rfl (.refl _) fun lockId hmem ↦ ?_
    rw [hevent] at hmem
    cases hmem
  | contentsResponse response surroundings hevent =>
    have hsection := CliprdrFile.section_fileContentsResponse s.file response surroundings
    refine h.afterSection hsection (fun lockId hmem ↦ ?_) rfl ?_ ?_
    · rw [held, hevent]
      exact List.mem_append_left _ hmem
    · rw [held, held, hevent, ← releasedLock_append_ownLock hsection]
      cases releasedLock s.file (s.file.fileContentsResponse response surroundings) with
      | none => exact .refl _
      | some lockId => exact .refl _
    · intro lockId hmem
      cases hreleased :
          releasedLock s.file (s.file.fileContentsResponse response surroundings) with
      | none =>
        rw [hreleased] at hmem
        cases hmem
      | some lockId' =>
        rw [hreleased] at hmem
        cases hmem
  | unlock sent oldLockId newLockId hevent =>
    refine h.unlock rfl ?_ fun lockId hmem ↦ h.announcing lockId ?_
    · rw [held, held, hevent]
      exact .refl _
    · rw [hevent]
      exact hmem
  | lock sent newLockId hevent =>
    obtain ⟨-, hactive, hid⟩ :=
      h.announcing newLockId (by rw [hevent]; exact List.mem_singleton_self _)
    refine h.lock rfl ?_ nofun
    rw [held, held, hevent]
    show (s.file.ownLock ++ s.command.toList).Perm (newLockId :: ([] ++ s.command.toList))
    rw [CliprdrFile.ownLock, hactive, hid]
    exact .refl _
  | request sent hevent =>
    refine h.of_held rfl ?_ ?_
    · rw [held, held, hevent]
      cases sent <;> exact .refl _
    · cases sent <;> exact nofun
  | clear sent hevent =>
    refine h.of_held rfl ?_ nofun
    rw [held, held, hevent]
    exact .refl _
  | finish sent lockId hevent =>
    refine h.unlock rfl ?_ nofun
    rw [held, held, hevent]
    exact .refl _
  | requestDownload tempDir accepts hcommand => exact h.requestDownload hcommand tempDir accepts
  | commandFinish lockId hcommand =>
    refine h.unlock rfl ?_ h.announcing
    rw [held, held, hcommand]
    refine List.perm_append_comm.trans (.cons _ ?_)
    rw [Option.toList_none, List.append_nil]
    exact .refl _

/-! ### Numbers -/

/-- The number of the `i`-th lock. -/
def lockNumber (first : UInt32) (i : ℕ) : UInt32 :=
  first + UInt32.ofNat i

/-- The locks that have been taken. -/
def lockIds (log : List ServerPdu) : List UInt32 :=
  log.filterMap fun
    | .lock lockId => some lockId
    | _ => none

/-- **Locks are numbered in order**, up to the one that is about to be taken. -/
def Numbered (first : UInt32) (s : ServerLocks) : Prop :=
  ∃ n, lockIds s.log ++ s.event.pendingLock = (List.range n).map (lockNumber first) ∧
    s.file.nextLockId = lockNumber first n

theorem lockIds_append (log log' : List ServerPdu) :
    lockIds (log ++ log') = lockIds log ++ lockIds log' :=
  List.filterMap_append

theorem count_lockIds (log : List ServerPdu) (lockId : UInt32) :
    (lockIds log).count lockId = log.count (.lock lockId) := by
  induction log with
  | nil => rfl
  | cons pdu log ih =>
    cases pdu with
    | lock other =>
      show (other :: lockIds log).count lockId = _
      rw [List.count_cons, List.count_cons, ih]
      by_cases h : other = lockId <;> simp [h]
    | unlock other =>
      show (lockIds log).count lockId = _
      rw [List.count_cons, ih]
      simp
    | contents request =>
      show (lockIds log).count lockId = _
      rw [List.count_cons, ih]
      simp

theorem lockIds_requestsBetween (s t : CliprdrFile) : lockIds (requestsBetween s t) = [] := by
  refine List.eq_nil_iff_forall_not_mem.2 fun lockId hmem ↦ ?_
  have hpos := List.count_pos_iff.2 hmem
  rw [count_lockIds, count_requestsBetween _ _ _ (by simp)] at hpos
  omega

theorem Numbered.of_eq {first : UInt32} (h : s.Numbered first)
    (hids : lockIds t.log ++ t.event.pendingLock = lockIds s.log ++ s.event.pendingLock)
    (hnext : t.file.nextLockId = s.file.nextLockId) : t.Numbered first := by
  obtain ⟨n, hn, hnext'⟩ := h
  exact ⟨n, hids.trans hn, hnext.trans hnext'⟩

theorem lockIds_afterSection (s : ServerLocks) (file : CliprdrFile) :
    lockIds (s.afterSection file).log = lockIds s.log := by
  show lockIds (s.log ++ requestsBetween s.file file) = _
  rw [lockIds_append, lockIds_requestsBetween, List.append_nil]

theorem numbered_step {first : UInt32} {action : LockAction} (h : s.Numbered first)
    (hstep : lockSystem.step s action = some t) : t.Numbered first := by
  cases lockStep_of_step hstep with
  | serverHasFiles hevent =>
    obtain ⟨n, hn, hnext⟩ := h
    rw [hevent] at hn
    refine ⟨n + 1, ?_, ?_⟩
    · have hpending : (if s.file.ourLockActive then
          EventStage.unlocking s.file.ourLockId s.file.nextLockId
          else EventStage.locking s.file.nextLockId).pendingLock = [s.file.nextLockId] := by
        cases s.file.ourLockActive <;> rfl
      have hids : lockIds s.log = (List.range n).map (lockNumber first) :=
        (List.append_nil _).symm.trans hn
      show lockIds s.log ++ EventStage.pendingLock _ = _
      rw [hpending, hids, hnext, List.range_succ, List.map_append, List.map_singleton]
    · show s.file.nextLockId + 1 = first + UInt32.ofNat (n + 1)
      rw [hnext, lockNumber, UInt32.ofNat_add, UInt32.add_assoc]
      rfl
  | fgdResponse descriptors hevent => exact h.of_eq rfl rfl
  | contentsResponse response surroundings hevent =>
    refine h.of_eq ?_
      (CliprdrFile.section_fileContentsResponse s.file response surroundings).nextLockId
    refine congrArg₂ (· ++ ·) (lockIds_afterSection s _) ?_
    rw [hevent]
    cases releasedLock s.file (s.file.fileContentsResponse response surroundings) <;> rfl
  | unlock sent oldLockId newLockId hevent =>
    refine h.of_eq (congrArg₂ (· ++ ·) ?_ ?_) rfl
    · exact (lockIds_append _ _).trans (List.append_nil _)
    · rw [hevent]
      rfl
  | lock sent newLockId hevent =>
    refine h.of_eq ?_ rfl
    rw [hevent]
    exact (List.append_nil _).trans (lockIds_append _ _)
  | request sent hevent =>
    refine h.of_eq (congrArg₂ (· ++ ·) rfl ?_) rfl
    rw [hevent]
    cases sent <;> rfl
  | clear sent hevent =>
    refine h.of_eq (congrArg₂ (· ++ ·) rfl ?_) rfl
    rw [hevent]
    rfl
  | finish sent lockId hevent =>
    refine h.of_eq (congrArg₂ (· ++ ·) ?_ ?_) rfl
    · exact (lockIds_append _ _).trans (List.append_nil _)
    · rw [hevent]
      rfl
  | requestDownload tempDir accepts hcommand =>
    exact h.of_eq (congrArg₂ (· ++ ·) (lockIds_afterSection s _) rfl)
      (CliprdrFile.section_requestDownload s.file tempDir accepts).nextLockId
  | commandFinish lockId hcommand =>
    refine h.of_eq (congrArg₂ (· ++ ·) ?_ rfl) rfl
    exact (lockIds_append _ _).trans (List.append_nil _)

theorem lockNumber_inj {first : UInt32} {i j : ℕ} (hi : i < 2 ^ 32) (hj : j < 2 ^ 32)
    (h : lockNumber first i = lockNumber first j) : i = j := by
  have hofNat : UInt32.ofNat i = UInt32.ofNat j := UInt32.add_right_inj first |>.1 h
  have htoNat := congrArg UInt32.toNat hofNat
  rw [UInt32.toNat_ofNat', UInt32.toNat_ofNat', Nat.mod_eq_of_lt hi, Nat.mod_eq_of_lt hj] at htoNat
  exact htoNat

/-- **Up to `2 ^ 32` locks** have different numbers. -/
theorem Numbered.count_le_one {first : UInt32} (h : s.Numbered first)
    (hlength : (lockIds s.log).length ≤ 2 ^ 32) (lockId : UInt32) :
    s.log.count (.lock lockId) ≤ 1 := by
  obtain ⟨n, hn, -⟩ := h
  have htake : lockIds s.log =
      (List.range (min (lockIds s.log).length n)).map (lockNumber first) := by
    rw [← List.take_range, List.map_take, ← hn, List.take_left]
  rw [← count_lockIds, htake]
  refine List.nodup_iff_count_le_one.1 ?_ lockId
  refine List.nodup_range.map_on fun i hi j hj heq ↦ ?_
  rw [List.mem_range] at hi hj
  exact lockNumber_inj (by omega) (by omega) heq

end ServerLocks

open ServerLocks

/-- The channel has just been connected, after whatever has been before it was disconnected. -/
def connectedLocks (s : CliprdrFile) : ServerLocks where
  file := s.channelDisconnected.channelConnected

theorem paired_connectedLocks (s : CliprdrFile) : (connectedLocks s).Paired where
  permitted := each_nil
  count _ := rfl
  announcing := nofun

/-- **Locks are paired**, in any interleaving within a connection. What is unlocked is locked, and
as long as numbers do not begin again, it has been locked once and not been unlocked. When no
operation is in progress, the lock that is recorded is held and no other. Requests that carry a lock
find it held. -/
theorem serverLocks_paired (s : CliprdrFile) (actions : List LockAction) {t : ServerLocks}
    (hrun : lockSystem.run (connectedLocks s) actions = some t) :
    (∀ pre lockId post, t.log = pre ++ .unlock lockId :: post → Held pre lockId ∧
      ((lockIds t.log).length ≤ 2 ^ 32 → .lock lockId ∈ pre ∧ .unlock lockId ∉ pre)) ∧
    (t.Idle → ∀ lockId, t.log.count (.lock lockId) = t.log.count (.unlock lockId) +
      if t.file.ourLockActive = true ∧ t.file.ourLockId = lockId then 1 else 0) ∧
    ∀ pre request post, t.log = pre ++ .contents request :: post →
      request.haveClipDataId = true → Held pre request.clipDataId := by
  have hpaired : t.Paired := StepSystem.run_invariant (fun _ _ _ h hstep ↦ paired_step h hstep)
    (paired_connectedLocks s) hrun
  have hnumbered : t.Numbered s.nextLockId :=
    StepSystem.run_invariant (fun _ _ _ h hstep ↦ numbered_step h hstep)
      (show (connectedLocks s).Numbered s.nextLockId from ⟨0, rfl, (UInt32.add_zero _).symm⟩) hrun
  refine ⟨fun pre lockId post hlog ↦ ?_, fun hidle lockId ↦ ?_, fun pre request post hlog ↦
    hpaired.permitted pre _ post hlog⟩
  · have hheld : Held pre lockId := hpaired.permitted pre _ post hlog
    refine ⟨hheld, fun hlength ↦ ?_⟩
    have hle := hnumbered.count_le_one hlength lockId
    have hpre : pre.count (.lock lockId) ≤ t.log.count (.lock lockId) := by
      rw [hlog]
      exact (List.sublist_append_left _ _).count_le _
    rw [Held] at hheld
    exact ⟨List.count_pos_iff.1 (by omega), List.count_eq_zero.1 (by omega)⟩
  · rw [hpaired.count lockId, held, hidle.1, hidle.2]
    congr 1
    show (t.file.ownLock ++ []).count lockId = _
    rw [List.append_nil, CliprdrFile.ownLock]
    cases t.file.ourLockActive with
    | true => simp [List.count_singleton]
    | false => simp

/-- Files are announced for the first time. -/
def firstAnnouncement : List LockAction :=
  [.serverHasFiles, .eventContinues true, .eventContinues true]

/-- A file of one byte is announced and downloaded; it is announced again, and once more when its
size has been asked for. -/
def announcedAgain : List LockAction :=
  firstAnnouncement ++
    [.fgdResponse [⟨0, some [0x61]⟩], .requestDownload [0x74] fun _ ↦ true,
      .contentsResponse ⟨1, true, some [1, 0, 0, 0, 0, 0, 0, 0]⟩ ⟨fun _ ↦ true, true, 1⟩,
      .contentsResponse ⟨2, true, some [7]⟩ ⟨fun _ ↦ true, true, 1⟩, .eventContinues true] ++
    firstAnnouncement ++
    [.fgdResponse [⟨0, some [0x61]⟩], .requestDownload [0x74] fun _ ↦ true, .serverHasFiles,
      .eventContinues true, .eventContinues true, .eventContinues true]

/-- Each unlocking and each request finds its lock held, and at the end the third lock is. -/
theorem serverLocks_paired_announcedAgain :
    ∃ t, lockSystem.run (connectedLocks {}) announcedAgain = some t ∧
      t.log =
        [.lock 100, .contents ⟨1, 0, .size, 0, 0, 8, true, 100⟩,
          .contents ⟨2, 0, .range, 0, 0, 1, true, 100⟩, .unlock 100, .lock 101,
          .contents ⟨3, 0, .size, 0, 0, 8, true, 101⟩, .unlock 101, .lock 102] ∧
      Held (t.log.take 2) 100 ∧ Held (t.log.take 5) 101 ∧
      (.lock 101 ∈ t.log.take 6 ∧ .unlock 101 ∉ t.log.take 6) ∧
      ∀ lockId, t.log.count (.lock lockId) =
        t.log.count (.unlock lockId) + if 102 = lockId then 1 else 0 := by
  obtain ⟨t, hrun, hlog, hactive, hlock, hidle⟩ :
      ∃ t, lockSystem.run (connectedLocks {}) announcedAgain = some t ∧
        t.log =
          [.lock 100, .contents ⟨1, 0, .size, 0, 0, 8, true, 100⟩,
            .contents ⟨2, 0, .range, 0, 0, 1, true, 100⟩, .unlock 100, .lock 101,
            .contents ⟨3, 0, .size, 0, 0, 8, true, 101⟩, .unlock 101, .lock 102] ∧
        t.file.ourLockActive = true ∧ t.file.ourLockId = 102 ∧ t.Idle :=
    ⟨_, rfl, rfl, rfl, rfl, rfl, rfl⟩
  obtain ⟨hunlocks, hcount, hrequests⟩ := serverLocks_paired {} announcedAgain hrun
  have hlength : (lockIds t.log).length ≤ 2 ^ 32 := by
    rw [hlog]
    decide
  have hrange : Held (t.log.take 2) 100 :=
    hrequests _ ⟨2, 0, .range, 0, 0, 1, true, 100⟩ (t.log.drop 3) (by rw [hlog]; rfl) rfl
  have hsize : Held (t.log.take 5) 101 :=
    hrequests _ ⟨3, 0, .size, 0, 0, 8, true, 101⟩ (t.log.drop 6) (by rw [hlog]; rfl) rfl
  have hunlock := (hunlocks (t.log.take 6) 101 (t.log.drop 7) (by rw [hlog]; rfl)).2 hlength
  refine ⟨t, hrun, hlog, hrange, hsize, hunlock, fun lockId ↦ ?_⟩
  rw [hcount hidle lockId, hactive, hlock]
  simp only [true_and]

/-- Files are announced again. -/
def nextAnnouncement : List LockAction :=
  [.serverHasFiles, .eventContinues true, .eventContinues true, .eventContinues true]

/-- The first announcement and `n` more, one after the other. -/
def announcements (n : ℕ) : List LockAction :=
  firstAnnouncement ++ (List.replicate n nextAnnouncement).flatten

namespace ServerLocks

variable {s t : ServerLocks}

/-- The state between two announcements. -/
structure Announced (s : ServerLocks) : Prop where
  event : s.event = .idle
  active : s.file.ourLockActive = true
  next : s.file.nextLockId = s.file.ourLockId + 1

/-- **The next announcement** releases one lock and takes the next. -/
theorem Announced.run_nextAnnouncement (h : s.Announced) :
    ∃ t, lockSystem.run s nextAnnouncement = some t ∧ t.Announced ∧
      t.file.ourLockId = s.file.ourLockId + 1 ∧
      t.log = s.log ++ [.unlock s.file.ourLockId, .lock (s.file.ourLockId + 1)] := by
  obtain ⟨file, event, command, log⟩ := s
  obtain ⟨rfl, hactive, hnext⟩ := h
  dsimp only at hactive hnext
  have hstep : lockSystem.step ⟨file, .idle, command, log⟩ .serverHasFiles =
      some ⟨file.serverHasFiles, .unlocking file.ourLockId file.nextLockId, command, log⟩ := by
    rw [lockSystem]
    dsimp only
    rw [hactive]
    rfl
  refine ⟨⟨file.serverHasFiles, .idle, command,
    (log ++ [.unlock file.ourLockId]) ++ [.lock file.nextLockId]⟩, ?_, ⟨rfl, rfl, rfl⟩, hnext, ?_⟩
  · rw [nextAnnouncement, StepSystem.run_cons, hstep]
    rfl
  · dsimp only
    rw [hnext, List.append_assoc]
    rfl

/-- **Announcements one after the other** count the numbers up. -/
theorem Announced.run_replicate (h : s.Announced) (n : ℕ) :
    ∃ t, lockSystem.run s (List.replicate n nextAnnouncement).flatten = some t ∧ t.Announced ∧
      t.file.ourLockId = s.file.ourLockId + UInt32.ofNat n ∧ s.log <+: t.log := by
  induction n generalizing s with
  | zero => exact ⟨s, rfl, h, (UInt32.add_zero _).symm, List.prefix_rfl⟩
  | succ n ih =>
    obtain ⟨t, ht, hannounced, hid, hlog⟩ := h.run_nextAnnouncement
    obtain ⟨u, hu, hannounced', hid', hlog'⟩ := ih hannounced
    refine ⟨u, ?_, hannounced', ?_, ?_⟩
    · rw [List.replicate_succ, List.flatten_cons, StepSystem.run_append_eq_some_iff]
      exact ⟨t, ht, hu⟩
    · rw [hid', hid, UInt32.add_assoc, Nat.add_comm n 1, UInt32.ofNat_add]
      rfl
    · exact (List.prefix_append _ _).trans (hlog ▸ hlog')

end ServerLocks

theorem announcements_add_two (n : ℕ) : announcements (n + 2) =
    firstAnnouncement ++ (nextAnnouncement ++
      ((List.replicate n nextAnnouncement).flatten ++ nextAnnouncement)) := by
  rw [announcements, List.replicate_succ, List.replicate_succ', List.flatten_cons,
    List.flatten_append, List.flatten_singleton]

/-- **Numbers begin again.** The number that is released first is released once more, after
`2 ^ 32` further announcements. -/
theorem serverLocks_unlockedTwice :
    ∃ t pre post,
      lockSystem.run (connectedLocks {}) (announcements (2 ^ 32 - 1 + 2)) = some t ∧
        t.log = pre ++ .unlock 100 :: post ∧ .unlock 100 ∈ pre := by
  obtain ⟨s₁, hs₁, hannounced₁, hid₁⟩ : ∃ s₁,
      lockSystem.run (connectedLocks {}) firstAnnouncement = some s₁ ∧ s₁.Announced ∧
        s₁.file.ourLockId = 100 := ⟨_, rfl, ⟨rfl, rfl, rfl⟩, rfl⟩
  obtain ⟨s₂, hs₂, hannounced₂, hid₂, hlog₂⟩ := hannounced₁.run_nextAnnouncement
  obtain ⟨s₃, hs₃, hannounced₃, hid₃, hlog₃⟩ := hannounced₂.run_replicate (2 ^ 32 - 1)
  obtain ⟨s₄, hs₄, -, -, hlog₄⟩ := hannounced₃.run_nextAnnouncement
  have hsame : s₃.file.ourLockId = 100 := by
    rw [hid₃, hid₂, hid₁]
    decide
  rw [hsame] at hlog₄
  rw [hid₁] at hlog₂
  refine ⟨s₄, s₃.log, _, ?_, hlog₄, hlog₃.subset ?_⟩
  · rw [announcements_add_two]
    exact (StepSystem.run_append_eq_some_iff _).2 ⟨s₁, hs₁,
      (StepSystem.run_append_eq_some_iff _).2 ⟨s₂, hs₂,
        (StepSystem.run_append_eq_some_iff _).2 ⟨s₃, hs₃, hs₄⟩⟩⟩
  · rw [hlog₂]
    exact List.mem_append_right _ List.mem_cons_self

end RdpMcp
