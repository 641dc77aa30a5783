import RdpMcp.Foundations.ListUpdate
import RdpMcp.Native.CliprdrFile

/-!
# The cursor of the download queue

What the cursor has passed should be complete (`InOrder`). It is passed over in two places: the loop
that looks for the next file to ask for, which looks at the entry under the cursor, and the handler
of answers, which advances the cursor **whatever entry the answer was for**. An answer matches any
entry with its stream identifier, so a repeated answer to a request for an earlier file, or an
answer with the identifier 0, which all entries behind the cursor have, skips the file under the
cursor.

`Ends` says which answers end an entry. The cursor stays right exactly in the runs in which such an
answer is for the entry under the cursor (`downloadQueue_iff`).
-/

open ListUpdate

namespace RdpMcp

/-- Anything that happens to the clipboard modules. -/
inductive DownloadAction where
  | call (call : ClipboardCall)
  | contents (response : ContentsResponse) (surroundings : Surroundings)

/-- The clipboard with a server that answers as it likes. -/
def downloadSystem (parseFileList : List UInt8 → List FileDescriptor) :
    StepSystem Clipboard DownloadAction where
  step s
    | .call call => some (s.call parseFileList call)
    | .contents response surroundings =>
      some { s with file := s.file.fileContentsResponse response surroundings }

namespace CliprdrFile

/-- Which entries are complete. -/
def flags (s : CliprdrFile) : List Bool :=
  s.downloads.map DownloadEntry.complete

/-- **The cursor is right**: what it has passed is complete, and so is everything once the queue is
finished. -/
structure InOrder (s : CliprdrFile) : Prop where
  passed : ∀ i < s.current, s.flags[i]? ≠ some false
  finished : s.downloading = false → false ∉ s.flags

/-- Between two calls, the cursor stands at an entry that is not complete, or behind all entries. -/
def Stands (s : CliprdrFile) : Prop :=
  (s.downloading = true → s.flags[s.current]? = some false) ∧
    (s.downloading = false → s.flags.length ≤ s.current)

/-- The answer is the last one for the entry: a failure, a size of zero or of a file that cannot be
opened, the last piece. -/
def Ends (entry : DownloadEntry) (response : ContentsResponse) (surroundings : Surroundings) :
    Prop :=
  response.ok = false ∨
    entry.sizeReceived = false ∧ (response.size = 0 ∨ surroundings.opens = false) ∨
    entry.sizeReceived = true ∧ entry.fp = true ∧ ∃ data, response.data = some data ∧ data ≠ [] ∧
      entry.totalSize ≤
        entry.bytesReceived + UInt64.ofNat (data.take surroundings.writes).length

/-- The answer does not end an entry other than the one under the cursor. -/
def Timely (s : CliprdrFile) (response : ContentsResponse) (surroundings : Surroundings) : Prop :=
  s.downloading = true → ∀ i entry, s.entryOf response.streamId = some (i, entry) →
    Ends entry response surroundings → i = s.current

/-- Two states with the same queue. -/
structure SameQueue (s t : CliprdrFile) : Prop where
  flags : t.flags = s.flags
  current : t.current = s.current
  downloading : t.downloading = s.downloading

variable {s t u : CliprdrFile}

theorem SameQueue.refl (s : CliprdrFile) : SameQueue s s :=
  ⟨rfl, rfl, rfl⟩

theorem SameQueue.trans (hst : SameQueue s t) (htu : SameQueue t u) : SameQueue s u :=
  ⟨htu.flags.trans hst.flags, htu.current.trans hst.current, htu.downloading.trans hst.downloading⟩

theorem SameQueue.inOrder_iff (h : SameQueue s t) : t.InOrder ↔ s.InOrder := by
  constructor
  · rintro ⟨hpassed, hfinished⟩
    rw [h.flags, h.current] at hpassed
    rw [h.flags, h.downloading] at hfinished
    exact ⟨hpassed, hfinished⟩
  · rintro ⟨hpassed, hfinished⟩
    rw [← h.flags, ← h.current] at hpassed
    rw [← h.flags, ← h.downloading] at hfinished
    exact ⟨hpassed, hfinished⟩

theorem SameQueue.stands_iff (h : SameQueue s t) : t.Stands ↔ s.Stands := by
  rw [Stands, Stands, h.flags, h.current, h.downloading]

/-! ### What leaves the queue as it is -/

theorem sameQueue_emit (s : CliprdrFile) (effect : FileEffect) : SameQueue s (s.emit effect) :=
  ⟨rfl, rfl, rfl⟩

theorem sameQueue_writeFile (s : CliprdrFile) (path : Path) (contents : List UInt8) :
    SameQueue s (s.writeFile path contents) :=
  ⟨rfl, rfl, rfl⟩

/-- Asking for contents leaves the queue as it is. -/
theorem sameQueue_send (s : CliprdrFile) (fileIndex : ℕ) (kind : ContentsKind) (offset : UInt64)
    (cbRequested : UInt32) (accepted : Bool) :
    SameQueue s (s.sendFileContentsRequest fileIndex kind offset cbRequested accepted).2 := by
  have hflags : (s.track fileIndex).flags = s.flags :=
    map_modify_of_eq (f := DownloadEntry.complete)
      (g := fun entry : DownloadEntry ↦ { entry with streamId := s.nextStreamId }) (fun _ ↦ rfl) _ _
  rw [sendFileContentsRequest]
  split
  · exact SameQueue.refl s
  · cases accepted with
    | true => exact ⟨hflags, rfl, rfl⟩
    | false => exact ⟨hflags, rfl, rfl⟩

/-- So does changing an entry that stays complete, or stays incomplete. -/
theorem SameQueue.set (h : SameQueue s t) {i : ℕ} {entry entry' : DownloadEntry}
    (hentry : t.downloads[i]? = some entry) (hcomplete : entry'.complete = entry.complete) :
    SameQueue s (t.setEntry i entry') :=
  h.trans ⟨map_set_of_eq hentry hcomplete, rfl, rfl⟩

/-! ### The loop -/

/-- What the loop does to a queue: it only completes what it passes over. -/
structure Advanced (s t : CliprdrFile) : Prop where
  below : ∀ i < s.current, t.flags[i]? = s.flags[i]?
  le : s.current ≤ t.current
  passed : ∀ i, s.current ≤ i → i < t.current → t.flags[i]? ≠ some false
  stands : t.Stands

/-- The loop stops at an entry that is not complete. -/
theorem advanced_of_sameQueue (h : SameQueue s t) (hdownloading : s.downloading = true)
    (hentry : s.flags[s.current]? = some false) : Advanced s t where
  below i _ := by rw [h.flags]
  le := h.current.ge
  passed i hle hlt := by
    rw [h.current] at hlt
    omega
  stands := h.stands_iff.2 ⟨fun _ ↦ hentry, fun hfalse ↦ by cases hdownloading.symm.trans hfalse⟩

/-- The loop stops behind all entries. -/
theorem advanced_finish (hlength : s.flags.length ≤ s.current) : Advanced s s.finish where
  below _ _ := rfl
  le := Nat.le_refl _
  passed _ hle hlt := absurd hle (Nat.not_le.2 hlt)
  stands := ⟨fun htrue ↦ (nomatch htrue), fun _ ↦ hlength⟩

/-- The loop passes over an entry that is complete. -/
theorem Advanced.of_next (h : Advanced u t) (hcurrent : u.current = s.current + 1)
    (hbelow : ∀ i < s.current, u.flags[i]? = s.flags[i]?)
    (hhere : u.flags[s.current]? ≠ some false) : Advanced s t where
  below i hlt := (h.below i (by omega)).trans (hbelow i hlt)
  le := by
    have := h.le
    omega
  passed i hle hlt := by
    rcases Nat.eq_or_lt_of_le hle with rfl | hlt'
    · rw [h.below s.current (by omega)]
      exact hhere
    · exact h.passed i (by omega) hlt
  stands := h.stands

/-- The entry under the cursor is completed and passed over. -/
theorem Advanced.of_set (h : Advanced u t) (hcurrent : u.current = s.current + 1)
    (hflags : u.flags = s.flags.set s.current true) : Advanced s t := by
  refine h.of_next hcurrent (fun i hlt ↦ ?_) ?_
  · rw [hflags, List.getElem?_set_ne (by omega)]
  · rw [hflags, List.getElem?_set_self']
    cases s.flags[s.current]? <;> simp

theorem advanced_startNext (accepts : ℕ → Bool) (n : ℕ) (hdownloading : s.downloading = true)
    (hn : s.flags.length ≤ s.current + n) : Advanced s (startNext accepts n s) := by
  induction n generalizing s with
  | zero => exact advanced_finish hn
  | succ n ih =>
    rw [startNext]
    cases hentry : s.downloads[s.current]? with
    | none =>
      refine advanced_finish ?_
      rw [flags, List.length_map]
      exact List.getElem?_eq_none_iff.1 hentry
    | some entry =>
      have hhere : s.flags[s.current]? = some entry.complete := by
        rw [flags, List.getElem?_map, hentry]
        rfl
      dsimp only
      split
      case isTrue hcomplete =>
        have hnext : Advanced s.advance (startNext accepts n s.advance) :=
          ih hdownloading (show s.flags.length ≤ s.current + 1 + n by omega)
        refine hnext.of_next rfl (fun _ _ ↦ rfl) ?_
        show s.flags[s.current]? ≠ some false
        rw [hhere, hcomplete]
        exact nofun
      case isFalse hcomplete =>
        rw [Bool.not_eq_true] at hcomplete
        rw [hcomplete] at hhere
        split
        · -- a directory
          have hset : (s.setEntry s.current { entry with complete := true }).flags =
              s.flags.set s.current true := List.map_set
          refine Advanced.of_set (ih hdownloading ?_) rfl hset
          show (s.setEntry s.current { entry with complete := true }).flags.length ≤
            s.current + 1 + n
          rw [hset, List.length_set]
          omega
        · split
          · -- a file whose size is not known yet
            have hsame := sameQueue_send s entry.fileIndex .size 0 8 (accepts entry.fileIndex)
            split
            · exact advanced_of_sameQueue hsame hdownloading hhere
            · -- the request cannot be sent
              generalize (s.sendFileContentsRequest entry.fileIndex .size 0 8
                (accepts entry.fileIndex)).2 = r at hsame
              have hset : ({ r with
                  downloads := r.downloads.modify r.current fun entry ↦
                    { entry with complete := true } } : CliprdrFile).flags =
                  s.flags.set s.current true := by
                rw [← hsame.flags, ← hsame.current]
                exact map_modify_eq_set (f := DownloadEntry.complete)
                  (g := fun entry : DownloadEntry ↦ { entry with complete := true })
                  (fun _ ↦ rfl) _ _
              refine Advanced.of_set (ih (hsame.downloading.trans hdownloading) ?_)
                (congrArg (· + 1) hsame.current) hset
              show List.length (flags { r with
                downloads := r.downloads.modify r.current fun entry ↦
                  { entry with complete := true } }) ≤ r.current + 1 + n
              rw [hset, List.length_set, hsame.current]
              omega
          · exact advanced_of_sameQueue (sameQueue_send _ _ _ _ _ _) hdownloading hhere

theorem advanced_startNextDownload (accepts : ℕ → Bool) (hdownloading : s.downloading = true) :
    Advanced s (s.startNextDownload accepts) := by
  refine advanced_startNext accepts _ hdownloading ?_
  rw [flags, List.length_map]
  omega

theorem Advanced.inOrder_iff (h : Advanced s t) :
    t.InOrder ↔ ∀ i < s.current, s.flags[i]? ≠ some false := by
  constructor
  · intro hinOrder i hlt
    rw [← h.below i hlt]
    exact hinOrder.passed i (Nat.lt_of_lt_of_le hlt h.le)
  · intro hbelow
    have hpassed : ∀ i < t.current, t.flags[i]? ≠ some false := by
      intro i hlt
      rcases Nat.lt_or_ge i s.current with hbefore | hbehind
      · rw [h.below i hbefore]
        exact hbelow i hbefore
      · exact h.passed i hbehind hlt
    refine ⟨hpassed, fun hfinished hmem ↦ ?_⟩
    obtain ⟨i, hi⟩ := List.mem_iff_getElem?.1 hmem
    obtain ⟨hlt, -⟩ := List.getElem?_eq_some_iff.1 hi
    exact hpassed i (Nat.lt_of_lt_of_le hlt (h.stands.2 hfinished)) hi

/-! ### Answers -/

/-- The queue with an entry completed. -/
structure Completes (s : CliprdrFile) (i : ℕ) (u : CliprdrFile) : Prop where
  flags : u.flags = s.flags.set i true
  current : u.current = s.current + 1
  downloading : u.downloading = s.downloading

theorem completes_finishEntry {i : ℕ} {entry : DownloadEntry} {report : CliprdrFile → CliprdrFile}
    (accepts : ℕ → Bool) (hreport : ∀ u, SameQueue u (report u)) (hsame : SameQueue s t) :
    ∃ u, Completes s i u ∧ t.finishEntry i entry report accepts = u.startNextDownload accepts := by
  have h := hreport (t.setEntry i { entry with complete := true })
  refine ⟨_, ⟨?_, ?_, ?_⟩, rfl⟩
  · rw [← hsame.flags]
    exact h.flags.trans List.map_set
  · rw [← hsame.current]
    exact congrArg (· + 1) h.current
  · exact h.downloading.trans hsame.downloading

/-- The size ends an entry if it is zero, or if the file cannot be opened. -/
theorem receiveSize_of_ends {i : ℕ} {entry : DownloadEntry} {size : UInt64}
    {surroundings : Surroundings} (hends : size = 0 ∨ surroundings.opens = false) :
    ∃ u, Completes s i u ∧
      s.receiveSize i entry size surroundings = u.startNextDownload surroundings.accepts := by
  rw [receiveSize]
  split
  · -- an empty file
    refine completes_finishEntry _ (fun u ↦ sameQueue_emit u _) ?_
    cases surroundings.opens with
    | true => exact sameQueue_writeFile s _ _
    | false => exact SameQueue.refl s
  case isFalse hsize =>
    rw [if_neg (by rw [hends.resolve_left hsize]; exact Bool.false_ne_true)]
    exact completes_finishEntry _ (fun u ↦ sameQueue_emit u _) (SameQueue.refl s)

/-- Otherwise the first piece is asked for. -/
theorem receiveSize_of_not_ends {i : ℕ} {entry : DownloadEntry} {size : UInt64}
    {surroundings : Surroundings} (hentry : s.downloads[i]? = some entry) (hsize : size ≠ 0)
    (hopens : surroundings.opens = true) :
    ∃ u, SameQueue s u ∧
      s.receiveSize i entry size surroundings = u.startNextDownload surroundings.accepts := by
  rw [receiveSize, if_neg hsize, if_pos hopens]
  refine ⟨_, SameQueue.set (sameQueue_writeFile s _ _) hentry ?_, rfl⟩
  rfl

/-- A piece ends an entry if it is the last one. -/
theorem receiveRange_of_ends {i : ℕ} {entry : DownloadEntry} {data : List UInt8}
    {surroundings : Surroundings}
    (hends : entry.totalSize ≤
      entry.bytesReceived + UInt64.ofNat (data.take surroundings.writes).length) :
    ∃ u, Completes s i u ∧
      s.receiveRange i entry data surroundings = u.startNextDownload surroundings.accepts := by
  rw [receiveRange, if_pos hends]
  exact completes_finishEntry _ (fun u ↦ sameQueue_emit u _)
    ((sameQueue_writeFile s _ _).trans (sameQueue_emit _ _))

/-- Otherwise the next one is asked for. -/
theorem sameQueue_receiveRange {i : ℕ} {entry : DownloadEntry} {data : List UInt8}
    {surroundings : Surroundings} (hentry : s.downloads[i]? = some entry)
    (hends : ¬entry.totalSize ≤
      entry.bytesReceived + UInt64.ofNat (data.take surroundings.writes).length) :
    SameQueue s (s.receiveRange i entry data surroundings) := by
  rw [receiveRange, if_neg hends]
  refine SameQueue.trans ?_ (sameQueue_send _ _ _ _ _ _)
  refine SameQueue.set ((sameQueue_writeFile s _ _).trans (sameQueue_emit _ _)) hentry ?_
  rfl

/-- **An answer that ends an entry** completes it and advances the cursor, whatever the entry. -/
theorem receive_of_ends {i : ℕ} {entry : DownloadEntry} {response : ContentsResponse}
    {surroundings : Surroundings} (hends : Ends entry response surroundings) :
    ∃ u, Completes s i u ∧
      s.receive i entry response surroundings = u.startNextDownload surroundings.accepts := by
  rw [receive]
  cases hok : response.ok with
  | false => exact completes_finishEntry _ (fun u ↦ sameQueue_emit u _) (SameQueue.refl s)
  | true =>
    rcases hends with hfail | ⟨hsize, hends⟩ | ⟨hsize, hfp, data, hdata, hne, hends⟩
    · cases hok.symm.trans hfail
    · rw [if_neg (by decide), hsize]
      exact receiveSize_of_ends hends
    · rw [if_neg (by decide), hsize, if_neg (by decide), hdata]
      cases data with
      | nil => exact absurd rfl hne
      | cons b data =>
        dsimp only
        rw [if_pos hfp]
        exact receiveRange_of_ends hends

/-- **An answer that does not** leaves the queue as it is, but for the loop. -/
theorem receive_of_not_ends {i : ℕ} {entry : DownloadEntry} {response : ContentsResponse}
    {surroundings : Surroundings} (hentry : s.downloads[i]? = some entry)
    (hends : ¬Ends entry response surroundings) :
    ∃ u, SameQueue s u ∧ (s.receive i entry response surroundings = u ∨
      s.receive i entry response surroundings = u.startNextDownload surroundings.accepts) := by
  rw [Ends, not_or, not_or, Bool.not_eq_false] at hends
  obtain ⟨hok, hsize, hrange⟩ := hends
  rw [receive, hok, if_neg (by decide)]
  cases hreceived : entry.sizeReceived with
  | false =>
    rw [if_pos (by decide)]
    have hends : response.size ≠ 0 ∧ surroundings.opens ≠ false :=
      not_or.1 fun h ↦ hsize ⟨hreceived, h⟩
    obtain ⟨u, hsame, heq⟩ :=
      receiveSize_of_not_ends hentry hends.1 ((Bool.not_eq_false _).mp hends.2)
    exact ⟨u, hsame, .inr heq⟩
  | true =>
    rw [if_neg (by decide)]
    split
    · exact ⟨s, SameQueue.refl s, .inl rfl⟩
    · exact ⟨s, SameQueue.refl s, .inl rfl⟩
    · next data hne hdata =>
      split
      · next hfp =>
        refine ⟨_, sameQueue_receiveRange hentry fun hends ↦ ?_, .inl rfl⟩
        exact hrange ⟨hreceived, hfp, data, hdata, hne, hends⟩
      · exact ⟨s, SameQueue.refl s, .inl rfl⟩

/-! ### One call -/

theorem entryOf_getElem? {streamId : UInt32} {i : ℕ} {entry : DownloadEntry}
    (h : s.entryOf streamId = some (i, entry)) : s.downloads[i]? = some entry := by
  rw [entryOf, Option.bind_eq_some_iff] at h
  obtain ⟨j, -, hj⟩ := h
  obtain ⟨entry', hentry, heq⟩ := Option.map_eq_some_iff.1 hj
  obtain ⟨rfl, rfl⟩ := Prod.mk.inj heq
  exact hentry

/-- **What an answer can do.** Nothing, if there is no download or no entry for it. Otherwise it
ends an entry and advances the cursor, or it leaves the queue as it is; and the loop may go on. -/
theorem fileContentsResponse_cases (s : CliprdrFile) (response : ContentsResponse)
    (surroundings : Surroundings) :
    ((s.downloading = false ∨ s.entryOf response.streamId = none) ∧
        s.fileContentsResponse response surroundings = s) ∨
      (s.downloading = true ∧ ∃ i entry, s.entryOf response.streamId = some (i, entry) ∧
        ((Ends entry response surroundings ∧ ∃ u, Completes s i u ∧
            s.fileContentsResponse response surroundings =
              u.startNextDownload surroundings.accepts) ∨
          (¬Ends entry response surroundings ∧ ∃ u, SameQueue s u ∧
            (s.fileContentsResponse response surroundings = u ∨
              s.fileContentsResponse response surroundings =
                u.startNextDownload surroundings.accepts)))) := by
  rw [fileContentsResponse]
  cases hdownloading : s.downloading with
  | false => exact .inl ⟨.inl rfl, if_pos rfl⟩
  | true =>
    cases hentryOf : s.entryOf response.streamId with
    | none => exact .inl ⟨.inr rfl, ite_self s⟩
    | some found =>
      obtain ⟨i, entry⟩ := found
      have hentry := entryOf_getElem? hentryOf
      have hne : s.downloads.isEmpty = false := by
        rw [List.isEmpty_eq_false_iff]
        exact List.ne_nil_of_mem (List.mem_of_getElem? hentry)
      rw [hne, if_neg (by decide)]
      refine .inr ⟨rfl, i, entry, rfl, ?_⟩
      by_cases hends : Ends entry response surroundings
      · exact .inl ⟨hends, receive_of_ends hends⟩
      · exact .inr ⟨hends, receive_of_not_ends hentry hends⟩

/-- Completing an entry and advancing is right exactly for the entry under the cursor. -/
theorem Completes.passed_iff {i : ℕ} (h : Completes s i u) (hinOrder : s.InOrder)
    (hhere : s.flags[s.current]? = some false) :
    (∀ j < u.current, u.flags[j]? ≠ some false) ↔ i = s.current := by
  rw [h.flags, h.current]
  constructor
  · intro hpassed
    by_contra hne
    refine hpassed s.current (Nat.lt_succ_self _) ?_
    rw [List.getElem?_set_ne hne, hhere]
  · rintro rfl j hlt
    rcases Nat.lt_succ_iff_lt_or_eq.1 hlt with hlt | rfl
    · rw [List.getElem?_set_ne (by omega)]
      exact hinOrder.passed j hlt
    · rw [List.getElem?_set_self']
      cases s.flags[s.current]? <;> simp

/-- **One answer.** From a state between two calls in which the cursor is right, it stays right
exactly if the answer is timely. -/
theorem fileContentsResponse_inOrder_iff {response : ContentsResponse}
    {surroundings : Surroundings} (hstands : s.Stands) (hinOrder : s.InOrder) :
    (s.fileContentsResponse response surroundings).InOrder ↔ s.Timely response surroundings := by
  rcases fileContentsResponse_cases s response surroundings with ⟨hnone, heq⟩ |
    ⟨hdownloading, i, entry, hentryOf, hcases⟩
  · rw [heq]
    refine iff_of_true hinOrder fun hdownloading i entry hentryOf ↦ ?_
    rcases hnone with hnone | hnone
    · cases hnone.symm.trans hdownloading
    · cases hnone.symm.trans hentryOf
  have htimely : s.Timely response surroundings ↔
      (Ends entry response surroundings → i = s.current) := by
    refine ⟨fun h ↦ h hdownloading i entry hentryOf, fun h _ j entry' hj ↦ ?_⟩
    obtain ⟨rfl, rfl⟩ := Prod.mk.inj (Option.some.inj (hentryOf.symm.trans hj))
    exact h
  rw [htimely]
  rcases hcases with ⟨hends, u, hcompletes, heq⟩ | ⟨hends, u, hsame, heq⟩
  · have hadvanced := advanced_startNextDownload surroundings.accepts
      (hcompletes.downloading.trans hdownloading)
    rw [heq, hadvanced.inOrder_iff, hcompletes.passed_iff hinOrder (hstands.1 hdownloading)]
    exact ⟨fun h _ ↦ h, fun h ↦ h hends⟩
  · refine iff_of_true ?_ fun h ↦ absurd h hends
    have hu := hsame.inOrder_iff.2 hinOrder
    rcases heq with heq | heq
    · rw [heq]
      exact hu
    · have hadvanced := advanced_startNextDownload surroundings.accepts
        (hsame.downloading.trans hdownloading)
      rw [heq, hadvanced.inOrder_iff]
      exact hu.passed

theorem stands_fileContentsResponse {response : ContentsResponse} {surroundings : Surroundings}
    (hstands : s.Stands) : (s.fileContentsResponse response surroundings).Stands := by
  rcases fileContentsResponse_cases s response surroundings with ⟨-, heq⟩ |
    ⟨hdownloading, i, entry, -, ⟨-, u, hcompletes, heq⟩ | ⟨-, u, hsame, heq | heq⟩⟩
  · rw [heq]
    exact hstands
  · rw [heq]
    exact (advanced_startNextDownload _ (hcompletes.downloading.trans hdownloading)).stands
  · rw [heq]
    exact hsame.stands_iff.2 hstands
  · rw [heq]
    exact (advanced_startNextDownload _ (hsame.downloading.trans hdownloading)).stands

/-- A queue that is given up. -/
theorem inOrder_of_downloads_eq_nil (h : s.downloads = []) : s.InOrder where
  passed i _ := by simp [flags, h]
  finished _ := by simp [flags, h]

theorem stands_of_downloads_eq_nil (h : s.downloads = []) (hdownloading : s.downloading = false) :
    s.Stands :=
  ⟨fun htrue ↦ (by cases hdownloading.symm.trans htrue), fun _ ↦ by simp [flags, h]⟩

/-- A download begins at the first entry. -/
theorem requestDownload_spec (tempDir : Path) (accepts : ℕ → Bool) (hstands : s.Stands) :
    (s.requestDownload tempDir accepts).Stands ∧
      (s.InOrder → (s.requestDownload tempDir accepts).InOrder) := by
  rw [requestDownload]
  split
  · exact ⟨hstands, id⟩
  · have hadvanced := advanced_startNextDownload (s := { s.freeDownloads with
        downloads := newDownloads tempDir s.descriptors
        downloading := true }.emit .started) accepts rfl
    refine ⟨hadvanced.stands, fun _ ↦ hadvanced.inOrder_iff.2 fun i hlt ↦ ?_⟩
    exact absurd hlt (Nat.not_lt_zero i)

end CliprdrFile

open CliprdrFile

variable {parseFileList : List UInt8 → List FileDescriptor}

/-- **One call.** The calls of the clipboard modules other than answers leave the cursor right. -/
theorem Clipboard.call_spec {s : Clipboard} (call : ClipboardCall) (hstands : s.file.Stands) :
    (s.call parseFileList call).file.Stands ∧
      (s.file.InOrder → (s.call parseFileList call).file.InOrder) := by
  cases call with
  | channelConnected => exact ⟨hstands, fun h ↦ ⟨h.passed, h.finished⟩⟩
  | channelDisconnected =>
    exact ⟨stands_of_downloads_eq_nil rfl rfl, fun _ ↦ inOrder_of_downloads_eq_nil rfl⟩
  | monitorReady => exact ⟨hstands, id⟩
  | formatList formats acknowledged sent =>
    rw [Clipboard.call]
    dsimp only
    split
    · exact ⟨stands_of_downloads_eq_nil rfl rfl, fun _ ↦ inOrder_of_downloads_eq_nil rfl⟩
    · exact ⟨hstands, id⟩
  | dataResponse response =>
    rw [Clipboard.call]
    dsimp only
    split
    · exact ⟨hstands, fun h ↦ ⟨h.passed, h.finished⟩⟩
    · exact ⟨hstands, id⟩
  | requestDownload tempDir accepts => exact requestDownload_spec tempDir accepts hstands

/-! ### The exact condition -/

/-- **The answers that keep the cursor right.** While a download is going on, an answer that ends an
entry is for the entry under the cursor. -/
def TimelyStep (s : Clipboard) : DownloadAction → Prop
  | .call _ => True
  | .contents response surroundings => s.file.Timely response surroundings

/-- **The exact condition.** In all states of a run what the cursor has passed is complete, and
everything is once the queue is finished, exactly if in all its steps an answer that ends an entry
is for the entry under the cursor. -/
theorem downloadQueue_iff (parseFileList : List UInt8 → List FileDescriptor)
    (actions : List DownloadAction) :
    (∀ pre post s, actions = pre ++ post → (downloadSystem parseFileList).run {} pre = some s →
        s.file.InOrder) ↔
      (downloadSystem parseFileList).StepsMeet TimelyStep {} actions := by
  refine (StepSystem.stepsMeet_iff_forall_prefix (I := fun s : Clipboard ↦ s.file.Stands)
    (P := fun s : Clipboard ↦ s.file.InOrder) ?_ ?_ ?_ (stands_of_downloads_eq_nil rfl rfl)
    (inOrder_of_downloads_eq_nil rfl)).symm
  · intro s a t hstands hstep
    cases a with
    | call call =>
      obtain rfl := Option.some.inj hstep
      exact (Clipboard.call_spec call hstands).1
    | contents response surroundings =>
      obtain rfl := Option.some.inj hstep
      exact stands_fileContentsResponse hstands
  · intro s a _ hstuck
    cases a with
    | call call => cases hstuck
    | contents response surroundings => cases hstuck
  · intro s a t hstands hinOrder hstep
    cases a with
    | call call =>
      obtain rfl := Option.some.inj hstep
      exact iff_of_true ((Clipboard.call_spec call hstands).2 hinOrder) trivial
    | contents response surroundings =>
      obtain rfl := Option.some.inj hstep
      exact fileContentsResponse_inOrder_iff hstands hinOrder

/-- Two files are announced and downloaded; the answer for the first, a failure, comes twice. -/
def failureTwice : List DownloadAction :=
  [.call .channelConnected,
    .call (.formatList [⟨49270, some "FileGroupDescriptorW"⟩] true true),
    .call (.dataResponse ⟨true, some [2]⟩),
    .call (.requestDownload [0x74] fun _ ↦ true),
    .contents ⟨1, false, none⟩ ⟨fun _ ↦ true, true, 0⟩,
    .contents ⟨1, false, none⟩ ⟨fun _ ↦ true, true, 0⟩]

/-- **The second file is skipped**, and the queue is finished without it. -/
theorem failureTwice_skips :
    ∃ s, (downloadSystem fun _ ↦ [⟨0, none⟩, ⟨0, none⟩]).run {} failureTwice = some s ∧
      s.file.current = 2 ∧ s.file.downloading = false ∧ s.file.flags = [true, false] ∧
      ¬s.file.InOrder := by
  refine ⟨_, rfl, by decide, by decide, by decide, fun h ↦ ?_⟩
  exact h.passed 1 (by decide) (by decide)

end RdpMcp
