import RdpMcp.Native.StreamIds

/-!
# Downloaded files are exact

A server with fixed contents answers every accepted request once, in any order and as late as it
likes: a request for a size with the eight bytes of the size, a request for a piece with any
beginning of that piece that is not empty. Downloads are restarted and files are announced anew in
between.

An answer finds an entry only if it answers the last request for it, and then the entry is the one
under the cursor. What has been written of its file is the beginning of the contents, up to the next
piece that is asked for (`Opened`). Hence a file that is reported as done is exact, and files are
reported in the order of their indices (`downloads_exact`).
-/

open LittleEndian ListUpdate

namespace RdpMcp

/-! ### A server with fixed contents -/

/-- The data answers the request: the size of the file in eight bytes, or the beginning of the piece
that is asked for. -/
def ContentsRequest.Answered (contents : ℕ → List UInt8) (request : ContentsRequest)
    (data : List UInt8) : Prop :=
  match request.kind with
  | .size => data.length = 8 ∧ ofBytes data = (contents request.listIndex).length
  | .range => data ≠ [] ∧ data.length ≤ request.cbRequested.toNat ∧
      data <+: (contents request.listIndex).drop request.position

instance (contents : ℕ → List UInt8) (request : ContentsRequest) (data : List UInt8) :
    Decidable (request.Answered contents data) :=
  match request with
  | ⟨_, _, .size, _, _, _, _, _⟩ => inferInstanceAs (Decidable (_ ∧ _))
  | ⟨_, _, .range, _, _, _, _, _⟩ => inferInstanceAs (Decidable (_ ∧ _ ∧ _))

/-- What happens to the clipboard modules: a call, or the answer to an accepted request. -/
inductive ServedAction where
  | call (call : ClipboardCall)
  | answer (k : ℕ) (data : List UInt8) (accepts : ℕ → Bool)

/-- The server answers a request; files can be opened and are written in full. -/
def Clipboard.answer (s : Clipboard) (k : ℕ) (request : ContentsRequest) (data : List UInt8)
    (accepts : ℕ → Bool) : Clipboard :=
  let file := { s.file with requests := s.file.requests.eraseIdx k }
  let response := ⟨request.streamId, true, some data⟩
  { s with file := file.fileContentsResponse response ⟨accepts, true, data.length⟩ }

/-- The clipboard with a server that answers every accepted request once. -/
def servedSystem (parseFileList : List UInt8 → List FileDescriptor) (contents : ℕ → List UInt8) :
    StepSystem Clipboard ServedAction where
  step s
    | .call call => some (s.call parseFileList call)
    | .answer k data accepts =>
      match s.file.requests[k]? with
      | none => none
      | some request =>
        if request.Answered contents data then some (s.answer k request data accepts) else none

namespace CliprdrFile

variable {contents : ℕ → List UInt8} {effect : FileEffect} {s t : CliprdrFile}

/-! ### The contents of files -/

/-- The entry has not been reached. -/
structure Fresh (entry : DownloadEntry) : Prop where
  sizeReceived : entry.sizeReceived = false
  complete : entry.complete = false
  bytesReceived : entry.bytesReceived = 0

/-- The size of the entry is known, and its file is the beginning of the contents. -/
structure Opened (contents : List UInt8) (file : Option (List UInt8)) (entry : DownloadEntry) :
    Prop where
  sizeReceived : entry.sizeReceived = true
  fp : entry.fp = true
  complete : entry.complete = false
  totalSize : entry.totalSize.toNat = contents.length
  bytesReceived : entry.bytesReceived.toNat < contents.length
  file : file = some (contents.take entry.bytesReceived.toNat)

/-- **What has been copied**: of the file under the cursor the beginning, and of those ahead
nothing. -/
structure Copying (contents : ℕ → List UInt8) (s : CliprdrFile) : Prop where
  ahead : ∀ (i : ℕ) (entry : DownloadEntry), s.downloads[i]? = some entry → s.current < i →
    Fresh entry
  here : ∀ entry, s.downloads[s.current]? = some entry →
    Fresh entry ∨ Opened (contents s.current) (s.files entry.tempPath) entry

/-- **Everything that has been reported is right**, and so is what has been copied. -/
structure Exact (contents : ℕ → List UInt8) (s : CliprdrFile) : Prop
    extends Copying contents s where
  reported : ReportedExactly contents s.history
  inOrder : ReportedInOrder s.history
  below : s.downloads ≠ [] → ReportedBelow s.history s.current
  fileIndex : ∀ (i : ℕ) (entry : DownloadEntry), s.downloads[i]? = some entry → entry.fileIndex = i

theorem Fresh.of_streamId {entry : DownloadEntry} (h : Fresh entry) (streamId : UInt32) :
    Fresh { entry with streamId } :=
  ⟨h.sizeReceived, h.complete, h.bytesReceived⟩

theorem Opened.of_streamId {contents : List UInt8} {file : Option (List UInt8)}
    {entry : DownloadEntry} (h : Opened contents file entry) (streamId : UInt32) :
    Opened contents file { entry with streamId } :=
  ⟨h.sizeReceived, h.fp, h.complete, h.totalSize, h.bytesReceived, h.file⟩

theorem Opened.of_file {contents : List UInt8} {file file' : Option (List UInt8)}
    {entry : DownloadEntry} (h : Opened contents file entry) (heq : file' = file) :
    Opened contents file' entry :=
  heq ▸ h

/-- **The size of a file has arrived**, and the file is open. -/
theorem Fresh.opened {contents : List UInt8} {entry : DownloadEntry} (h : Fresh entry)
    {size : UInt64} (hsize : size.toNat = contents.length) (hne : size ≠ 0) :
    Opened contents (some [])
      { entry with totalSize := size, sizeReceived := true, fp := true } where
  sizeReceived := rfl
  fp := rfl
  complete := h.complete
  totalSize := hsize
  bytesReceived := by
    show entry.bytesReceived.toNat < _
    rw [h.bytesReceived, ← hsize]
    exact Nat.pos_of_ne_zero fun hzero ↦ hne (UInt64.toNat_inj.1 hzero)
  file := by
    show some [] = some (contents.take entry.bytesReceived.toNat)
    rw [h.bytesReceived]
    rfl

/-- A beginning and the beginning of the rest. -/
theorem take_append_of_prefix_drop {α : Type*} {xs data : List α} {n : ℕ}
    (h : data <+: xs.drop n) : xs.take n ++ data = xs.take (n + data.length) := by
  rw [List.take_add, ← List.prefix_iff_eq_take.1 h]

/-- **A piece is written**: then the file is whole, or it is still a beginning. -/
theorem Opened.append {contents data : List UInt8} {file : Option (List UInt8)}
    {entry : DownloadEntry} (h : Opened contents file entry)
    (hdata : data <+: contents.drop entry.bytesReceived.toNat) :
    (entry.bytesReceived + UInt64.ofNat data.length ≥ entry.totalSize →
      file.getD [] ++ data = contents) ∧
    (¬entry.bytesReceived + UInt64.ofNat data.length ≥ entry.totalSize →
      Opened contents (some (file.getD [] ++ data))
        { entry with bytesReceived := entry.bytesReceived + UInt64.ofNat data.length }) := by
  have hle : entry.bytesReceived.toNat + data.length ≤ contents.length := by
    have hlength := hdata.length_le
    rw [List.length_drop] at hlength
    have := h.bytesReceived
    omega
  have hbytes : (entry.bytesReceived + UInt64.ofNat data.length).toNat =
      entry.bytesReceived.toNat + data.length := by
    have htotal := entry.totalSize.toNat_lt
    rw [h.totalSize] at htotal
    rw [UInt64.toNat_add, UInt64.toNat_ofNat', Nat.add_mod_mod, Nat.mod_eq_of_lt (by omega)]
  have hfile : file.getD [] ++ data =
      contents.take (entry.bytesReceived.toNat + data.length) := by
    rw [h.file, Option.getD_some, take_append_of_prefix_drop hdata]
  refine ⟨fun hlast ↦ ?_, fun hlast ↦ ⟨h.sizeReceived, h.fp, h.complete, h.totalSize, ?_, ?_⟩⟩
  · have hall := UInt64.le_iff_toNat_le.1 hlast
    rw [hbytes, h.totalSize] at hall
    rw [hfile, List.take_of_length_le hall]
  · show (entry.bytesReceived + UInt64.ofNat data.length).toNat < _
    rw [← h.totalSize]
    exact Nat.not_le.1 fun hle ↦ hlast (UInt64.le_iff_toNat_le.2 hle)
  · show _ = some (contents.take (entry.bytesReceived + UInt64.ofNat data.length).toNat)
    rw [hbytes, hfile]

/-! ### What has been copied -/

/-- `Copying` looks at the queue and the files. -/
theorem Copying.of_eq (h : Copying contents s) (hdownloads : t.downloads = s.downloads)
    (hcurrent : t.current = s.current) (hfiles : t.files = s.files) : Copying contents t := by
  constructor
  · rw [hdownloads, hcurrent]
    exact h.ahead
  · rw [hdownloads, hcurrent, hfiles]
    exact h.here

theorem Copying.track (h : Copying contents s) (fileIndex : ℕ) :
    Copying contents (s.track fileIndex) where
  ahead i entry' hentry' hlt := by
    obtain ⟨entry, hentry, heq, -⟩ := getElem?_track hentry'
    rw [heq]
    exact (h.ahead i entry hentry hlt).of_streamId _
  here entry' hentry' := by
    obtain ⟨entry, hentry, heq, -⟩ := getElem?_track hentry'
    rw [heq]
    exact (h.here entry hentry).imp (fun h ↦ h.of_streamId _) fun h ↦ h.of_streamId _

/-- The next entry has not been reached. -/
theorem Copying.pass (h : Copying contents s) (hcurrent : t.current = s.current + 1)
    (hothers : ∀ i, s.current < i → t.downloads[i]? = s.downloads[i]?) : Copying contents t where
  ahead i entry hentry hlt := by
    rw [hcurrent] at hlt
    exact h.ahead i entry ((hothers i (by omega)).symm.trans hentry) (by omega)
  here entry hentry := by
    rw [hcurrent] at hentry
    exact .inl (h.ahead _ entry ((hothers _ (by omega)).symm.trans hentry) (Nat.lt_succ_self _))

/-- The file under the cursor is open, and more of it has been written. -/
theorem Copying.open_set (h : Copying contents s) {entry entry' : DownloadEntry}
    (hentry : s.downloads[s.current]? = some entry)
    (hdownloads : t.downloads = s.downloads.set s.current entry')
    (hopened : Opened (contents s.current) (t.files entry'.tempPath) entry')
    (hcurrent : t.current = s.current) : Copying contents t := by
  obtain ⟨hlt, -⟩ := List.getElem?_eq_some_iff.1 hentry
  constructor
  · intro i entry₁ hentry₁ hi
    rw [hcurrent] at hi
    rw [hdownloads, List.getElem?_set_ne (Nat.ne_of_lt hi)] at hentry₁
    exact h.ahead i entry₁ hentry₁ hi
  · intro entry₁ hentry₁
    rw [hcurrent] at hentry₁ ⊢
    rw [hdownloads, List.getElem?_set_self hlt] at hentry₁
    obtain rfl := Option.some.inj hentry₁
    exact .inr hopened

/-- Without a download there is nothing to copy. -/
theorem copying_of_downloads_eq_nil (hdownloads : t.downloads = []) : Copying contents t := by
  constructor
  · rw [hdownloads]
    exact nofun
  · rw [hdownloads]
    exact nofun

theorem getElem?_newDownloads {tempDir : Path} {descriptors : List FileDescriptor} {i : ℕ}
    {entry : DownloadEntry} (h : (newDownloads tempDir descriptors)[i]? = some entry) :
    entry.fileIndex = i ∧ entry.streamId = 0 ∧ Fresh entry := by
  rw [newDownloads, List.getElem?_mapIdx] at h
  obtain ⟨descriptor, -, rfl⟩ := Option.map_eq_some_iff.1 h
  exact ⟨rfl, rfl, rfl, rfl, rfl⟩

/-- A download begins with nothing. -/
theorem copying_newDownloads {tempDir : Path} {descriptors : List FileDescriptor}
    (h : t.downloads = newDownloads tempDir descriptors) : Copying contents t := by
  constructor
  · rw [h]
    exact fun i entry hentry _ ↦ (getElem?_newDownloads hentry).2.2
  · rw [h]
    exact fun entry hentry ↦ .inl (getElem?_newDownloads hentry).2.2

/-! ### What has been reported -/

/-- `Exact` looks at the queue, the files and the history. -/
theorem Exact.of_eq (h : Exact contents s) (hhistory : t.history = s.history)
    (hdownloads : t.downloads = s.downloads) (hcurrent : t.current = s.current)
    (hfiles : t.files = s.files) : Exact contents t := by
  refine ⟨h.toCopying.of_eq hdownloads hcurrent hfiles, ?_, ?_, ?_, ?_⟩
  · rw [hhistory]
    exact h.reported
  · rw [hhistory]
    exact h.inOrder
  · rw [hhistory, hdownloads, hcurrent]
    exact h.below
  · rw [hdownloads]
    exact h.fileIndex

/-- What is no report changes nothing. -/
theorem Exact.emit (h : Exact contents s) (hnone : effect.doneIndex = none) :
    Exact contents (s.emit effect) where
  toCopying := h.toCopying.of_eq rfl rfl rfl
  reported := h.reported.concat (FileEffect.rightAt_of_doneIndex (n := 0) hnone)
  inOrder := h.inOrder.concat fun i hi ↦ by cases hnone.symm.trans hi
  below hne := (h.below hne).concat (Nat.le_refl _) fun i hi ↦ by cases hnone.symm.trans hi
  fileIndex := h.fileIndex

theorem Exact.track (h : Exact contents s) (fileIndex : ℕ) :
    Exact contents (s.track fileIndex) where
  toCopying := h.toCopying.track fileIndex
  reported := h.reported
  inOrder := h.inOrder
  below hne := h.below fun hnil ↦ hne (by rw [CliprdrFile.track, hnil, List.modify_nil])
  fileIndex i entry' hentry' := by
    obtain ⟨entry, hentry, heq, -⟩ := getElem?_track hentry'
    rw [heq]
    exact h.fileIndex i entry hentry

theorem Exact.send (h : Exact contents s) (fileIndex : ℕ) (kind : ContentsKind) (offset : UInt64)
    (cbRequested : UInt32) (accepted : Bool) :
    Exact contents (s.sendFileContentsRequest fileIndex kind offset cbRequested accepted).2 :=
  send_rule h (fun _ _ ↦ (h.track fileIndex).emit rfl) (fun _ _ h ↦ h.of_eq rfl rfl rfl rfl) kind
    offset cbRequested accepted

/-- **Passing an entry**: what is reported for it is right. -/
theorem Exact.pass (h : Exact contents s) (hne : s.downloads ≠ [])
    (hright : effect.RightAt contents s.current) (hhistory : t.history = s.history ++ [effect])
    (hcurrent : t.current = s.current + 1)
    (hothers : ∀ i, i ≠ s.current → t.downloads[i]? = s.downloads[i]?)
    (hindex : ∀ entry, t.downloads[s.current]? = some entry → entry.fileIndex = s.current) :
    Exact contents t where
  toCopying := h.toCopying.pass hcurrent fun i hi ↦ hothers i (Nat.ne_of_gt hi)
  reported := by
    rw [hhistory]
    exact h.reported.concat hright
  inOrder := by
    rw [hhistory]
    refine h.inOrder.concat fun i hi ↦ ?_
    rw [hright.eq_of_doneIndex hi]
    exact h.below hne
  below _ := by
    rw [hhistory, hcurrent]
    refine (h.below hne).concat (Nat.le_succ _) fun i hi ↦ ?_
    rw [hright.eq_of_doneIndex hi]
    exact Nat.lt_succ_self _
  fileIndex i entry hentry := by
    by_cases hi : i = s.current
    · subst hi
      exact hindex entry hentry
    · exact h.fileIndex i entry ((hothers i hi).symm.trans hentry)

/-! ### The loop -/

/-- A state in which no request is for an entry: the loop may look for the next file. -/
structure Settled (contents : ℕ → List UInt8) (s : CliprdrFile) : Prop where
  exact : s.Exact contents
  ids : s.Ids
  unasked : s.Unasked

/-- A state between two calls. -/
structure Served (contents : ℕ → List UInt8) (s : CliprdrFile) : Prop where
  exact : s.Exact contents
  ids : s.Ids
  asked : s.Asked

theorem Settled.served (h : s.Settled contents) : s.Served contents :=
  ⟨h.exact, h.ids, h.unasked.asked⟩

theorem Settled.of_sameIds (h : s.Settled contents) (hsame : SameIds s t)
    (hexact : t.Exact contents) : t.Settled contents :=
  ⟨hexact, hsame.ids h.ids, hsame.unasked h.unasked⟩

/-- The queue is finished. -/
theorem Settled.finish (h : s.Settled contents) : s.finish.Settled contents := by
  refine h.of_sameIds ⟨rfl, rfl, rfl, sentRequests_concat _ _⟩ ?_
  have hexact : Exact contents (s.emit .finished) := h.exact.emit rfl
  exact hexact.of_eq rfl rfl rfl rfl

/-- The entry under the cursor is passed; stream identifiers are as they were. -/
theorem Settled.pass (h : s.Settled contents) (effect : FileEffect) (hne : s.downloads ≠ [])
    (hright : effect.RightAt contents s.current) (hrequest : effect.isRequest = false)
    (hhistory : t.history = s.history ++ [effect]) (hcurrent : t.current = s.current + 1)
    (hothers : ∀ i, i ≠ s.current → t.downloads[i]? = s.downloads[i]?)
    (hindex : ∀ entry, t.downloads[s.current]? = some entry → entry.fileIndex = s.current)
    (hnext : t.nextStreamId = s.nextStreamId) (hrequests : t.requests = s.requests)
    (hentries : t.entryIds = s.entryIds) : t.Settled contents := by
  refine h.of_sameIds ⟨hnext, hrequests, hentries, ?_⟩
    (h.exact.pass hne hright hhistory hcurrent hothers hindex)
  rw [hhistory, sentRequests_concat, hrequest]
  rfl

/-- The entry under the cursor is completed in its place, reported and passed. -/
theorem Settled.pass_set (h : s.Settled contents) (effect : FileEffect)
    {entry entry' : DownloadEntry} (hentry : s.downloads[s.current]? = some entry)
    (hdownloads : t.downloads = s.downloads.set s.current entry')
    (hindex : entry'.fileIndex = entry.fileIndex) (hstreamId : entry'.streamId = entry.streamId)
    (hright : effect.RightAt contents s.current) (hrequest : effect.isRequest = false)
    (hhistory : t.history = s.history ++ [effect]) (hcurrent : t.current = s.current + 1)
    (hnext : t.nextStreamId = s.nextStreamId) (hrequests : t.requests = s.requests) :
    t.Settled contents := by
  refine h.pass effect (fun hnil ↦ ?_) hright hrequest hhistory hcurrent (fun i hi ↦ ?_)
    (fun entry₁ hentry₁ ↦ ?_) hnext hrequests ?_
  · rw [hnil] at hentry
    cases hentry
  · rw [hdownloads]
    exact List.getElem?_set_ne (Ne.symm hi)
  · obtain ⟨hlt, -⟩ := List.getElem?_eq_some_iff.1 hentry
    rw [hdownloads, List.getElem?_set_self hlt] at hentry₁
    rw [← Option.some.inj hentry₁, hindex, h.exact.fileIndex _ _ hentry]
  · rw [entryIds, hdownloads]
    exact map_set_of_eq hentry hstreamId

/-- The entry under the cursor is open, and more of its file has been written. -/
theorem Settled.open_set (h : s.Settled contents) {entry entry' : DownloadEntry}
    (hentry : s.downloads[s.current]? = some entry)
    (hdownloads : t.downloads = s.downloads.set s.current entry')
    (hindex : entry'.fileIndex = entry.fileIndex) (hstreamId : entry'.streamId = entry.streamId)
    (hopened : Opened (contents s.current) (t.files entry'.tempPath) entry')
    (hhistory : t.history = s.history) (hcurrent : t.current = s.current)
    (hnext : t.nextStreamId = s.nextStreamId) (hrequests : t.requests = s.requests) :
    t.Settled contents := by
  obtain ⟨hlt, -⟩ := List.getElem?_eq_some_iff.1 hentry
  have hhere : t.downloads[s.current]? = some entry' := by
    rw [hdownloads, List.getElem?_set_self hlt]
  have hothers : ∀ i, i ≠ s.current → t.downloads[i]? = s.downloads[i]? := fun i hi ↦ by
    rw [hdownloads, List.getElem?_set_ne (Ne.symm hi)]
  refine h.of_sameIds ⟨hnext, hrequests, ?_, by rw [hhistory]⟩ ?_
  · rw [entryIds, hdownloads]
    exact map_set_of_eq hentry hstreamId
  · refine ⟨h.exact.toCopying.open_set hentry hdownloads hopened hcurrent, ?_, ?_, fun _ ↦ ?_,
      fun i entry₁ hentry₁ ↦ ?_⟩
    · rw [hhistory]
      exact h.exact.reported
    · rw [hhistory]
      exact h.exact.inOrder
    · rw [hhistory, hcurrent]
      refine h.exact.below fun hnil ↦ ?_
      rw [hnil] at hentry
      cases hentry
    · by_cases hi : i = s.current
      · subst hi
        obtain rfl := Option.some.inj (hhere.symm.trans hentry₁)
        rw [hindex, h.exact.fileIndex _ _ hentry]
      · exact h.exact.fileIndex i entry₁ ((hothers i hi).symm.trans hentry₁)

/-- What is neither a request nor a report changes nothing. -/
theorem Settled.emit (h : s.Settled contents) (hrequest : effect.isRequest = false)
    (hnone : effect.doneIndex = none) : (s.emit effect).Settled contents :=
  h.of_sameIds (sameIds_emit s hrequest) (h.exact.emit hnone)

/-- The request for the size of the entry under the cursor has failed. -/
theorem Settled.pass_modify (h : s.Settled contents) (hne : s.downloads ≠ []) (fileIndex : ℕ)
    (text : String) :
    (({ s with
        downloads := s.downloads.modify s.current fun entry ↦ { entry with complete := true }
        } : CliprdrFile).emit (.error fileIndex text)).advance.Settled contents := by
  refine h.pass (.error fileIndex text) hne trivial rfl rfl rfl (fun i hi ↦ ?_)
    (fun entry' hentry' ↦ ?_) rfl rfl (map_modify_of_eq (f := DownloadEntry.streamId)
      (g := fun entry : DownloadEntry ↦ { entry with complete := true }) (fun _ ↦ rfl) _ _)
  · exact List.getElem?_modify_ne _ _ (Ne.symm hi)
  · have hmodify := (List.getElem?_modify_eq _ s.current s.downloads).symm.trans hentry'
    obtain ⟨entry, hentry, rfl⟩ := Option.map_eq_some_iff.1 hmodify
    exact h.exact.fileIndex _ entry hentry

/-- **The loop** leads from a state in which no request is for an entry to one between two calls. -/
theorem served_startNext (accepts : ℕ → Bool) (n : ℕ) (h : s.Settled contents)
    (hsent : sentRequests (startNext accepts n s).history < 2 ^ 31) :
    (startNext accepts n s).Served contents := by
  induction n generalizing s with
  | zero => exact h.finish.served
  | succ n ih =>
    rw [startNext] at hsent ⊢
    cases hentry : s.downloads[s.current]? with
    | none => exact h.finish.served
    | some entry =>
      have hne : s.downloads ≠ [] := by
        intro hnil
        rw [hnil] at hentry
        cases hentry
      have hindex := h.exact.fileIndex _ _ hentry
      have hcomplete : entry.complete = false :=
        (h.exact.here entry hentry).elim (fun h ↦ h.complete) fun h ↦ h.complete
      rw [hentry] at hsent
      dsimp only at hsent ⊢
      rw [hcomplete, if_neg Bool.false_ne_true] at hsent ⊢
      split at hsent
      case isTrue hdirectory =>
        -- a directory
        rw [if_pos hdirectory]
        refine ih ?_ hsent
        refine h.pass_set (.done entry.fileIndex _ _ _ _ _) hentry rfl rfl rfl
          ⟨hindex, fun hfalse ↦ ?_⟩ rfl rfl rfl rfl rfl
        cases hdirectory.symm.trans hfalse
      case isFalse hdirectory =>
        rw [if_neg hdirectory]
        split at hsent
        case isTrue hsize =>
          -- a file whose size is not known yet
          rw [if_pos hsize]
          split at hsent
          case isTrue hsentNow =>
            rw [if_pos hsentNow]
            refine ⟨h.exact.send _ _ _ _ _, ids_send h.ids hsent, ?_⟩
            exact asked_send h.ids h.unasked hsent hindex hentry ((Bool.not_eq_true' _).mp hsize)
          case isFalse hfailed =>
            -- the entry is given up, with a new identifier that no request has
            rw [if_neg hfailed]
            rw [Bool.not_eq_true] at hfailed
            refine ih ?_ hsent
            have hsendSent : sentRequests (s.sendFileContentsRequest entry.fileIndex .size 0 8
                (accepts entry.fileIndex)).2.history < 2 ^ 31 := by
              refine Nat.lt_of_le_of_lt (sentRequests_mono ?_) hsent
              refine List.IsPrefix.trans ?_ (history_startNext _ _ _)
              exact List.prefix_append _ _
            have hsettled : Settled contents
                (s.sendFileContentsRequest entry.fileIndex .size 0 8 (accepts entry.fileIndex)).2 :=
              ⟨h.exact.send _ _ _ _ _, ids_send h.ids hsendSent,
                unasked_send h.ids h.unasked hsendSent hfailed⟩
            refine hsettled.pass_modify (fun hnil ↦ hne ?_) _ _
            have hflags := (sameQueue_send s entry.fileIndex .size 0 8
              (accepts entry.fileIndex)).flags
            rw [flags, hnil, flags] at hflags
            exact List.map_eq_nil_iff.1 hflags.symm
        case isFalse hsize =>
          -- a file that is open
          rw [if_neg hsize]
          refine ⟨h.exact.send _ _ _ _ _, ids_send h.ids hsent, ?_⟩
          refine asked_send h.ids h.unasked hsent hindex hentry ⟨?_, rfl⟩
          simpa using hsize

theorem Settled.startNextDownload (h : s.Settled contents) (accepts : ℕ → Bool)
    (hsent : sentRequests (s.startNextDownload accepts).history < 2 ^ 31) :
    (s.startNextDownload accepts).Served contents :=
  served_startNext accepts _ h hsent

/-! ### Answers -/

/-- **The size of the file under the cursor.** -/
theorem served_receiveSize (h : s.Settled contents) {entry : DownloadEntry} {size : UInt64}
    {accepts : ℕ → Bool} {writes : ℕ} (hentry : s.downloads[s.current]? = some entry)
    (hfresh : Fresh entry) (hsize : size.toNat = (contents s.current).length)
    (hsent : sentRequests (s.receiveSize s.current entry size ⟨accepts, true, writes⟩).history <
      2 ^ 31) : (s.receiveSize s.current entry size ⟨accepts, true, writes⟩).Served contents := by
  rw [receiveSize] at hsent ⊢
  split at hsent
  case isTrue hzero =>
    -- an empty file
    rw [if_pos hzero]
    refine Settled.startNextDownload ?_ _ hsent
    refine h.pass_set (.done entry.fileIndex _ _ _ _ _) hentry rfl rfl rfl
      ⟨h.exact.fileIndex _ _ hentry, fun _ ↦ ?_⟩ rfl rfl rfl rfl rfl
    have hnil : contents s.current = [] := by
      rw [← List.length_eq_zero_iff, ← hsize, hzero]
      rfl
    rw [h.exact.fileIndex _ _ hentry, hnil]
    exact Function.update_self _ _ _
  case isFalse hzero =>
    rw [if_neg hzero, if_pos rfl]
    rw [if_pos rfl] at hsent
    refine Settled.startNextDownload ?_ _ hsent
    refine h.open_set hentry rfl rfl rfl ?_ rfl rfl rfl rfl
    exact (hfresh.opened hsize hzero).of_file (Function.update_self _ _ _)

/-- **A piece of the file under the cursor.** -/
theorem served_receiveRange (h : s.Settled contents) {entry : DownloadEntry} {data : List UInt8}
    {accepts : ℕ → Bool} (hentry : s.downloads[s.current]? = some entry)
    (hopened : Opened (contents s.current) (s.files entry.tempPath) entry)
    (hdata : data <+: (contents s.current).drop entry.bytesReceived.toNat)
    (hsent : sentRequests
      (s.receiveRange s.current entry data ⟨accepts, true, data.length⟩).history < 2 ^ 31) :
    (s.receiveRange s.current entry data ⟨accepts, true, data.length⟩).Served contents := by
  obtain ⟨hall, hmore⟩ := hopened.append hdata
  have hprogress : (s.emit (.progress entry.fileIndex
      (entry.bytesReceived + UInt64.ofNat data.length) entry.totalSize
      s.downloads.length)).Settled contents :=
    h.emit rfl rfl
  have hindex := h.exact.fileIndex _ _ hentry
  rw [receiveRange] at hsent ⊢
  dsimp only at hsent ⊢
  rw [List.take_length] at hsent ⊢
  split at hsent
  case isTrue hlast =>
    -- the last piece
    rw [if_pos hlast]
    refine Settled.startNextDownload ?_ _ hsent
    refine hprogress.pass_set (.done entry.fileIndex _ _ _ _ _) hentry rfl rfl rfl
      ⟨hindex, fun _ ↦ ?_⟩ rfl rfl rfl rfl rfl
    rw [hindex]
    exact (Function.update_self _ _ _).trans (congrArg some (hall hlast))
  case isFalse hlast =>
    rw [if_neg hlast]
    obtain ⟨hlt, -⟩ := List.getElem?_eq_some_iff.1 hentry
    have hsettled : Settled contents
        (((s.writeFile entry.tempPath ((s.files entry.tempPath).getD [] ++ data)).emit
          (.progress entry.fileIndex (entry.bytesReceived + UInt64.ofNat data.length)
            entry.totalSize s.downloads.length)).setEntry s.current
              { entry with bytesReceived := entry.bytesReceived + UInt64.ofNat data.length }) := by
      refine hprogress.open_set hentry rfl rfl rfl ?_ rfl rfl rfl rfl
      exact (hmore hlast).of_file (Function.update_self _ _ _)
    refine ⟨hsettled.exact.send _ _ _ _ _, ids_send hsettled.ids hsent, ?_⟩
    exact asked_send hsettled.ids hsettled.unasked hsent hindex (List.getElem?_set_self hlt)
      ⟨hopened.sizeReceived, rfl⟩

/-- Forgetting a request. -/
theorem Served.eraseIdx (h : s.Served contents) (k : ℕ) :
    Served contents { s with requests := s.requests.eraseIdx k } where
  exact := h.exact.of_eq rfl rfl rfl rfl
  ids := ⟨h.ids.next, fun r hr ↦ h.ids.requested r (List.mem_of_mem_eraseIdx hr),
    h.ids.distinct.sublist ((List.eraseIdx_sublist _ k).map _), h.ids.entries⟩
  asked r hr := h.asked r (List.mem_of_mem_eraseIdx hr)

/-- The other requests have other stream identifiers. -/
theorem Ids.streamId_ne_of_mem_eraseIdx (hids : s.Ids) {k : ℕ} {request r : ContentsRequest}
    (hrequest : s.requests[k]? = some request) (hr : r ∈ s.requests.eraseIdx k) :
    r.streamId ≠ request.streamId := by
  obtain ⟨j, hjk, hj⟩ := List.mem_eraseIdx_iff_getElem?.1 hr
  intro heq
  have hmapj : (s.requests.map ContentsRequest.streamId)[j]? = some r.streamId := by
    rw [List.getElem?_map, hj]
    rfl
  have hmapk : (s.requests.map ContentsRequest.streamId)[k]? = some r.streamId := by
    rw [List.getElem?_map, hrequest, heq]
    rfl
  obtain ⟨hlt, -⟩ := List.getElem?_eq_some_iff.1 hmapj
  exact hjk ((List.getElem?_inj hlt hids.distinct).1 (hmapj.trans hmapk.symm))

/-- **When the request for an entry is answered**, no request is for an entry. -/
theorem Served.settled_eraseIdx (h : s.Served contents) {k : ℕ} {request : ContentsRequest}
    (hrequest : s.requests[k]? = some request) {i : ℕ} {entry : DownloadEntry}
    (hentry : s.downloads[i]? = some entry) (heq : entry.streamId = request.streamId) :
    Settled contents { s with requests := s.requests.eraseIdx k } := by
  have herased := h.eraseIdx k
  refine ⟨herased.exact, herased.ids, fun r hr hmem ↦ ?_⟩
  obtain ⟨j, entry', hentry', heq'⟩ := mem_entryIds_iff.1 hmem
  obtain ⟨rfl, -⟩ := h.asked request (List.mem_of_getElem? hrequest) i entry hentry heq
  obtain ⟨rfl, -⟩ := h.asked r (List.mem_of_mem_eraseIdx hr) j entry' hentry' heq'
  obtain rfl := Option.some.inj (hentry.symm.trans hentry')
  exact h.ids.streamId_ne_of_mem_eraseIdx hrequest hr (heq'.symm.trans heq)

theorem entryOf_streamId {streamId : UInt32} {i : ℕ} {entry : DownloadEntry}
    (h : s.entryOf streamId = some (i, entry)) : entry.streamId = streamId := by
  rw [entryOf, Option.bind_eq_some_iff] at h
  obtain ⟨j, hj, hmap⟩ := h
  obtain ⟨entry', hentry, heq⟩ := Option.map_eq_some_iff.1 hmap
  obtain ⟨rfl, rfl⟩ := Prod.mk.inj heq
  obtain ⟨hlt, hbeq, -⟩ := List.findIdx?_eq_some_iff_getElem.1 hj
  obtain ⟨_, rfl⟩ := List.getElem?_eq_some_iff.1 hentry
  exact beq_iff_eq.1 hbeq

/-- The size in an answer of eight bytes. -/
theorem toNat_size {streamId : UInt32} {data : List UInt8} (hlength : data.length = 8) :
    (ContentsResponse.size ⟨streamId, true, some data⟩).toNat = ofBytes data := by
  have hlt := ofBytes_lt data
  rw [hlength] at hlt
  rw [ContentsResponse.size]
  dsimp only
  rw [if_pos hlength.ge, List.take_of_length_le hlength.le, UInt64.toNat_ofNat']
  exact Nat.mod_eq_of_lt hlt

/-- **One answer** of the server. -/
theorem served_answer (h : s.Served contents) {k : ℕ} {request : ContentsRequest}
    (hrequest : s.requests[k]? = some request) {data : List UInt8}
    (hanswered : request.Answered contents data) {accepts : ℕ → Bool}
    (hsent : sentRequests ({ s with
      requests := s.requests.eraseIdx k }.fileContentsResponse ⟨request.streamId, true, some data⟩
        ⟨accepts, true, data.length⟩).history < 2 ^ 31) :
    Served contents ({ s with
      requests := s.requests.eraseIdx k }.fileContentsResponse ⟨request.streamId, true, some data⟩
        ⟨accepts, true, data.length⟩) := by
  unfold fileContentsResponse at hsent ⊢
  split at hsent
  case isTrue hstop =>
    rw [if_pos hstop]
    exact h.eraseIdx k
  case isFalse hgo =>
    rw [if_neg hgo]
    split at hsent
    · exact h.eraseIdx k
    · next i entry hentryOf =>
      have hentry : s.downloads[i]? = some entry := entryOf_getElem? hentryOf
      have heq := entryOf_streamId hentryOf
      have hsettled := h.settled_eraseIdx hrequest hentry heq
      -- it is the entry under the cursor, and the request was for what it needs
      obtain ⟨rfl, hindex, hasks⟩ :=
        h.asked request (List.mem_of_getElem? hrequest) i entry hentry heq
      have hhere := h.exact.here entry hentry
      rw [ContentsRequest.Answered, hindex] at hanswered
      unfold receive at hsent ⊢
      rw [if_neg (by simp)] at hsent ⊢
      cases hkind : request.kind with
      | size =>
        rw [hkind] at hanswered hasks
        obtain ⟨hlength, hsize⟩ := hanswered
        rw [hasks, if_pos (by rfl)] at hsent ⊢
        have hfresh : Fresh entry := hhere.resolve_right fun hopened ↦ by
          cases hopened.sizeReceived.symm.trans hasks
        exact served_receiveSize hsettled hentry hfresh ((toNat_size hlength).trans hsize) hsent
      | range =>
        rw [hkind] at hanswered hasks
        obtain ⟨hne, -, hdata⟩ := hanswered
        obtain ⟨hreceived, hposition⟩ := hasks
        rw [hreceived, if_neg (by decide)] at hsent ⊢
        have hopened := hhere.resolve_left fun hfresh ↦ by
          cases hfresh.sizeReceived.symm.trans hreceived
        cases data with
        | nil => exact absurd rfl hne
        | cons b data =>
          dsimp only at hsent ⊢
          rw [if_pos hopened.fp] at hsent ⊢
          rw [hposition] at hdata
          exact served_receiveRange hsettled hentry hopened hdata hsent

/-! ### Calls -/

/-- Between two calls, without a download. -/
theorem Served.of_downloads_eq_nil (h : s.Served contents) (hdownloads : t.downloads = [])
    (hhistory : t.history = s.history) (hnext : t.nextStreamId = s.nextStreamId)
    (hrequests : t.requests = s.requests) : t.Served contents where
  exact := by
    refine ⟨copying_of_downloads_eq_nil hdownloads, ?_, ?_, fun hne ↦ absurd hdownloads hne, ?_⟩
    · rw [hhistory]
      exact h.exact.reported
    · rw [hhistory]
      exact h.exact.inOrder
    · rw [hdownloads]
      exact nofun
  ids := by
    refine ⟨?_, ?_, ?_, ?_⟩
    · rw [hhistory, hnext]
      exact h.ids.next
    · rw [hhistory, hrequests]
      exact h.ids.requested
    · rw [hrequests]
      exact h.ids.distinct
    · rw [entryIds, hdownloads]
      exact fun id hid ↦ by cases hid
  asked := by
    rw [Asked, hdownloads]
    exact fun r _ i entry hentry ↦ by cases hentry

/-- **A download begins**: nothing has been asked for. -/
theorem Served.settled_started (h : s.Served contents) (tempDir : Path)
    (descriptors : List FileDescriptor) :
    Settled contents ({ s.freeDownloads with
      downloads := newDownloads tempDir descriptors
      downloading := true }.emit .started) := by
  have hsent : sentRequests (s.history ++ [.started]) = sentRequests s.history :=
    sentRequests_concat _ _
  refine ⟨⟨copying_newDownloads rfl, ?_, ?_, fun _ ↦ reportedBelow_started _ _, ?_⟩,
    ⟨?_, ?_, h.ids.distinct, ?_⟩, ?_⟩
  · exact h.exact.reported.concat (n := 0) trivial
  · exact h.exact.inOrder.concat fun i hi ↦ by cases hi
  · exact fun i entry hentry ↦ (getElem?_newDownloads hentry).1
  · show sentRequests (s.history ++ [.started]) + 1 < 2 ^ 31 →
      s.nextStreamId.toNat = sentRequests (s.history ++ [.started]) + 1
    rw [hsent]
    exact h.ids.next
  · show ∀ r ∈ s.requests, _ ∧ _ ≤ sentRequests (s.history ++ [.started])
    rw [hsent]
    exact h.ids.requested
  · intro id hid
    obtain ⟨i, entry, hentry, rfl⟩ := mem_entryIds_iff.1 hid
    rw [(getElem?_newDownloads hentry).2.1]
    exact Nat.zero_le _
  · intro r hr hid
    obtain ⟨i, entry, hentry, heq⟩ := mem_entryIds_iff.1 hid
    have hpos := (h.ids.requested r hr).1
    rw [← heq, (getElem?_newDownloads hentry).2.1] at hpos
    exact absurd hpos (Nat.lt_irrefl 0)

theorem served_requestDownload (h : s.Served contents) (tempDir : Path) (accepts : ℕ → Bool)
    (hsent : sentRequests (s.requestDownload tempDir accepts).history < 2 ^ 31) :
    (s.requestDownload tempDir accepts).Served contents := by
  rw [requestDownload] at hsent ⊢
  split at hsent
  case isTrue hstop =>
    rw [if_pos hstop]
    exact h
  case isFalse hgo =>
    rw [if_neg hgo]
    exact (h.settled_started tempDir s.descriptors).startNextDownload accepts hsent

end CliprdrFile

open CliprdrFile

variable {parseFileList : List UInt8 → List FileDescriptor}

/-- **One call.** -/
theorem Clipboard.served_call {s : Clipboard} (call : ClipboardCall) (h : s.file.Served contents)
    (hsent : sentRequests (s.call parseFileList call).file.history < 2 ^ 31) :
    (s.call parseFileList call).file.Served contents := by
  cases call with
  | channelConnected =>
    have hsame : SameIds s.file s.file.channelConnected := ⟨rfl, rfl, rfl, rfl⟩
    exact ⟨h.exact.of_eq rfl rfl rfl rfl, hsame.ids h.ids, h.asked⟩
  | channelDisconnected => exact h.of_downloads_eq_nil rfl rfl rfl rfl
  | monitorReady => exact h
  | formatList formats acknowledged sent =>
    rw [Clipboard.call]
    dsimp only
    split
    · exact h.of_downloads_eq_nil rfl rfl rfl rfl
    · exact h
  | dataResponse response =>
    rw [Clipboard.call]
    dsimp only
    split
    · refine ⟨h.exact.of_eq rfl rfl rfl rfl, SameIds.ids ?_ h.ids, h.asked⟩
      exact ⟨rfl, rfl, rfl, rfl⟩
    · exact h
  | requestDownload tempDir accepts => exact served_requestDownload h tempDir accepts hsent

/-! ### Runs -/

theorem served_init (contents : ℕ → List UInt8) : Served contents {} where
  exact := ⟨copying_of_downloads_eq_nil rfl, nofun, fun download hinfix _ ↦ (by
    rw [List.eq_nil_of_infix_nil hinfix]
    exact List.Pairwise.nil), fun hne ↦ absurd rfl hne, nofun⟩
  ids := ⟨fun _ ↦ rfl, nofun, List.Pairwise.nil, nofun⟩
  asked := nofun

/-- **Downloaded files are exact.** In every run with a server with fixed contents, in which fewer
than `2 ^ 31` requests are sent, what is reported as done is exact, directories apart, and within
one download files are reported in the order of their indices, and each at most once. -/
theorem downloads_exact (parseFileList : List UInt8 → List FileDescriptor)
    (contents : ℕ → List UInt8) (actions : List ServedAction) (t : Clipboard)
    (hrun : (servedSystem parseFileList contents).run {} actions = some t)
    (hsent : sentRequests t.file.history < 2 ^ 31) :
    ReportedExactly contents t.file.history ∧ ReportedInOrder t.file.history := by
  have hserved : sentRequests t.file.history < 2 ^ 31 → t.file.Served contents := by
    refine StepSystem.run_invariant
      (P := fun s : Clipboard ↦ sentRequests s.file.history < 2 ^ 31 → s.file.Served contents)
      (fun s a u h hstep hu ↦ ?_) (fun _ ↦ served_init contents) hrun
    cases a with
    | call call =>
      obtain rfl := Option.some.inj hstep
      -- fewer requests had been sent before
      have hs := Nat.lt_of_le_of_lt (sentRequests_mono (Clipboard.history_call call)) hu
      exact Clipboard.served_call call (h hs) hu
    | answer k data accepts =>
      rw [servedSystem] at hstep
      dsimp only at hstep
      split at hstep
      · cases hstep
      · next request hrequest =>
        split at hstep
        · next hanswered =>
          obtain rfl := Option.some.inj hstep
          have hs := Nat.lt_of_le_of_lt (sentRequests_mono history_fileContentsResponse) hu
          exact served_answer (h hs) hrequest hanswered hu
        · cases hstep
  exact ⟨(hserved hsent).exact.reported, (hserved hsent).exact.inOrder⟩

/-- A directory, an empty file and a file of three bytes. -/
def threeFiles : List FileDescriptor :=
  [⟨fileAttributeDirectory, some [0x61]⟩, ⟨0, some [0x62]⟩, ⟨0, some [0x63]⟩]

def threeContents (i : ℕ) : List UInt8 :=
  if i = 2 then [7, 8, 9] else []

/-- The download is restarted when the size of the empty file has been asked for, and the answer to
that request comes late. -/
def restarted : List ServedAction :=
  [.call .channelConnected,
    .call (.formatList [⟨49270, some "FileGroupDescriptorW"⟩] true true),
    .call (.dataResponse ⟨true, some [3]⟩),
    .call (.requestDownload [0x74] fun _ ↦ true),
    .call (.requestDownload [0x75] fun _ ↦ true),
    .answer 0 [0, 0, 0, 0, 0, 0, 0, 0] fun _ ↦ true,
    .answer 0 [0, 0, 0, 0, 0, 0, 0, 0] fun _ ↦ true,
    .answer 0 [3, 0, 0, 0, 0, 0, 0, 0] fun _ ↦ true,
    .answer 0 [7, 8] fun _ ↦ true,
    .answer 0 [9] fun _ ↦ true]

theorem downloads_exact_restarted :
    ∃ t, (servedSystem (fun _ ↦ threeFiles) threeContents).run {} restarted = some t ∧
      doneIndices t.file.history = [0, 0, 1, 2] ∧
      ReportedExactly threeContents t.file.history ∧ ReportedInOrder t.file.history := by
  refine ⟨_, rfl, by decide, ?_⟩
  exact downloads_exact (fun _ ↦ threeFiles) threeContents restarted _ rfl (by decide)

end RdpMcp
