import RdpMcp.Native.InFlight

/-!
# The list of remote files

When descriptors arrive, the module sends a list of the remote files, without indices: a file is
known by its position. When a download is requested, its entries are made from the same descriptors,
and what is reported of a file carries the index of its entry. Two loops run over the descriptors,
and they differ in what they do if a name cannot be converted: the second saves the file as
`unknown`, **the first leaves it out**, so that all files behind it move up in the list.

`reports_run`: until the next list arrives, whatever happens, the index that is reported is that of
the descriptor. `filePositions_iff`: the position in the list is so too exactly if all names can be
converted.
-/

namespace RdpMcp

/-- `FILEDESCRIPTORW`, with the size. -/
structure SizedDescriptor extends FileDescriptor where
  nFileSizeHigh : UInt32
  nFileSizeLow : UInt32
  deriving DecidableEq, Repr

/-- An element of the list of remote files; the size is written as a double. -/
structure ListedFile where
  name : Path
  size : UInt64
  isDir : Bool
  deriving DecidableEq, Repr

/-- The element of a descriptor, if its name can be converted. -/
def SizedDescriptor.listed (descriptor : SizedDescriptor) : Option ListedFile :=
  descriptor.utf8Name.map fun name ↦
    { name := normalizePathSeparators name
      size := descriptor.nFileSizeHigh.toUInt64 <<< 32 ||| descriptor.nFileSizeLow.toUInt64
      isDir := descriptor.isDirectory }

/-- The loop over the descriptors from an index on: every element, with the index of the descriptor
that it is made from. -/
def listFrom (i : ℕ) : List SizedDescriptor → List (ℕ × ListedFile)
  | [] => []
  | descriptor :: descriptors =>
    match descriptor.listed with
    | none => listFrom (i + 1) descriptors
    | some file => (i, file) :: listFrom (i + 1) descriptors

/-- The list that `cliprdr_file_handle_fgd_response` sends. -/
def fileList (descriptors : List SizedDescriptor) : List ListedFile :=
  (listFrom 0 descriptors).map Prod.snd

/-! ### The list -/

theorem map_listFrom (i : ℕ) (descriptors : List SizedDescriptor) :
    (listFrom i descriptors).map Prod.snd = descriptors.filterMap SizedDescriptor.listed := by
  induction descriptors generalizing i with
  | nil => rfl
  | cons descriptor descriptors ih =>
    rw [listFrom, List.filterMap_cons]
    split
    · next hlisted =>
      rw [hlisted]
      exact ih (i + 1)
    · next file hlisted =>
      rw [hlisted, List.map_cons, ih]

theorem listed_isSome_iff (descriptor : SizedDescriptor) :
    descriptor.listed.isSome = true ↔ descriptor.utf8Name ≠ none := by
  rw [SizedDescriptor.listed, Option.isSome_map, Option.isSome_iff_ne_none]

/-- **Nothing is left out** exactly if all names can be converted. -/
theorem length_fileList_iff (descriptors : List SizedDescriptor) :
    (fileList descriptors).length = descriptors.length ↔
      ∀ descriptor ∈ descriptors, descriptor.utf8Name ≠ none := by
  rw [fileList, map_listFrom, List.filterMap_length_eq_length]
  exact forall₂_congr fun descriptor _ ↦ listed_isSome_iff descriptor

/-- If all names can be converted, then each position has its own descriptor. -/
theorem getElem?_listFrom {descriptors : List SizedDescriptor}
    (h : ∀ descriptor ∈ descriptors, descriptor.utf8Name ≠ none) (i : ℕ) {k : ℕ}
    (hk : k < descriptors.length) : ∃ file, (listFrom i descriptors)[k]? = some (i + k, file) := by
  induction descriptors generalizing i k with
  | nil => cases hk
  | cons descriptor descriptors ih =>
    rw [List.forall_mem_cons, ← listed_isSome_iff] at h
    obtain ⟨first, hfirst⟩ := Option.isSome_iff_exists.1 h.1
    rw [listFrom, hfirst]
    cases k with
    | zero => exact ⟨first, rfl⟩
    | succ k =>
      obtain ⟨file, hfile⟩ := ih h.2 (i + 1) (Nat.lt_of_succ_lt_succ hk)
      rw [Nat.add_right_comm] at hfile
      exact ⟨file, hfile⟩

/-! ### Reports -/

/-- The index that is reported. -/
def FileEffect.reportIndex : FileEffect → Option ℕ
  | done fileIndex _ _ _ _ _ | error fileIndex _ | progress fileIndex _ _ _ => some fileIndex
  | started | request _ _ | finished => none

/-- What is reported is about the descriptor with the index that is reported, and what the server is
asked for is a file that it has announced. -/
def FileEffect.Concerns (descriptors : List FileDescriptor) : FileEffect → Prop
  | done fileIndex isDirectory path name _ _ => ∃ tempDir descriptor,
      descriptors[fileIndex]? = some descriptor ∧ isDirectory = descriptor.isDirectory ∧
        path = tempPath tempDir descriptor ∧ name = reportedName (some descriptor)
  | error fileIndex _ | progress fileIndex _ _ _ => fileIndex < descriptors.length
  | request sent _ => sent.listIndex < descriptors.length
  | started | finished => True

theorem FileEffect.Concerns.lt_length {descriptors : List FileDescriptor} {effect : FileEffect}
    (h : effect.Concerns descriptors) {k : ℕ} (hk : effect.reportIndex = some k) :
    k < descriptors.length := by
  cases effect with
  | done fileIndex isDirectory path name size contents =>
    obtain rfl := Option.some.inj hk
    obtain ⟨tempDir, descriptor, hdescriptor, -⟩ := h
    exact (List.getElem?_eq_some_iff.1 hdescriptor).1
  | error fileIndex text =>
    obtain rfl := Option.some.inj hk
    exact h
  | progress fileIndex transferred total files =>
    obtain rfl := Option.some.inj hk
    exact h
  | started => cases hk
  | request sent accepted => cases hk
  | finished => cases hk

/-- The entry is made from the descriptor with its index. -/
def MadeFrom (descriptors : List FileDescriptor) (i : ℕ) (entry : DownloadEntry) : Prop :=
  entry.fileIndex = i ∧ ∃ tempDir descriptor, descriptors[i]? = some descriptor ∧
    entry.tempPath = tempPath tempDir descriptor

theorem MadeFrom.lt_length {descriptors : List FileDescriptor} {i : ℕ} {entry : DownloadEntry}
    (h : MadeFrom descriptors i entry) : entry.fileIndex < descriptors.length := by
  obtain ⟨rfl, tempDir, descriptor, hdescriptor, -⟩ := h
  exact (List.getElem?_eq_some_iff.1 hdescriptor).1

namespace CliprdrFile

variable {descriptors : List FileDescriptor} {base : List FileEffect} {s t : CliprdrFile}

theorem lasting_madeFrom : Lasting (MadeFrom descriptors) :=
  ⟨fun _ _ _ h ↦ h, fun _ _ h ↦ h⟩

/-- **Indices are those of the descriptors**, in the queue and in what has been reported since. -/
structure Reports (descriptors : List FileDescriptor) (base : List FileEffect) (s : CliprdrFile) :
    Prop where
  listed : s.descriptors = descriptors ∨ s.descriptors = [] ∧ s.downloads = []
  entries : s.EachEntry (MadeFrom descriptors)
  history : ∃ effects, s.history = base ++ effects ∧
    ∀ effect ∈ effects, effect.Concerns descriptors

/-- Two states with the same queue, descriptors and history. -/
theorem Reports.of_eq (h : s.Reports descriptors base)
    (hdescriptors : t.descriptors = s.descriptors) (hdownloads : t.downloads = s.downloads)
    (hhistory : t.history = s.history) :
    t.Reports descriptors base := by
  refine ⟨?_, h.entries.of_downloads_eq hdownloads, ?_⟩
  · rw [hdescriptors, hdownloads]
    exact h.listed
  · rw [hhistory]
    exact h.history

theorem Reports.emit (h : s.Reports descriptors base) {effect : FileEffect}
    (heffect : effect.Concerns descriptors) : (s.emit effect).Reports descriptors base := by
  obtain ⟨effects, heffects, hconcerns⟩ := h.history
  refine ⟨h.listed, h.entries, effects ++ [effect], ?_, fun effect' hmem ↦ ?_⟩
  · rw [CliprdrFile.emit, heffects, List.append_assoc]
  · rcases List.mem_append.1 hmem with hmem | hmem
    · exact hconcerns effect' hmem
    · obtain rfl := List.mem_singleton.1 hmem
      exact heffect

/-- While there are entries, the descriptors are those that they are made from. -/
theorem Reports.descriptors_eq (h : s.Reports descriptors base) {i : ℕ} {entry : DownloadEntry}
    (hentry : s.downloads[i]? = some entry) : s.descriptors = descriptors := by
  refine h.listed.resolve_right fun hnone ↦ ?_
  rw [hnone.2] at hentry
  cases hentry

/-- The entries are changed in a way that keeps what they are made from. -/
theorem Reports.of_downloads (h : s.Reports descriptors base)
    (hdescriptors : t.descriptors = s.descriptors) (hnil : s.downloads = [] → t.downloads = [])
    (hentries : t.EachEntry (MadeFrom descriptors)) (hhistory : t.history = s.history) :
    t.Reports descriptors base := by
  refine ⟨?_, hentries, ?_⟩
  · rw [hdescriptors]
    exact h.listed.imp_right (And.imp_right hnil)
  · rw [hhistory]
    exact h.history

theorem Reports.setEntry (h : s.Reports descriptors base) {i : ℕ} {entry : DownloadEntry}
    (hentry : MadeFrom descriptors i entry) : (s.setEntry i entry).Reports descriptors base := by
  refine h.of_downloads rfl (fun hnil ↦ ?_) (h.entries.set hentry rfl) rfl
  rw [CliprdrFile.setEntry, hnil]
  rfl

theorem Reports.send (h : s.Reports descriptors base) {fileIndex : ℕ}
    (hlt : fileIndex < descriptors.length) (kind : ContentsKind) (offset : UInt64)
    (cbRequested : UInt32) (accepted : Bool) :
    (s.sendFileContentsRequest fileIndex kind offset cbRequested accepted).2.Reports descriptors
      base := by
  have hentries := h.entries.send lasting_madeFrom fileIndex kind offset cbRequested accepted
  obtain hsend | ⟨request, hrequest, hsend⟩ :=
    sendFileContentsRequest_cases s fileIndex kind offset cbRequested accepted
  · rw [hsend]
    exact h
  · have htracked : (s.track fileIndex).Reports descriptors base := by
      refine h.of_downloads rfl (fun hnil ↦ ?_) (fun i entry' hentry' ↦ ?_) rfl
      · rw [CliprdrFile.track, hnil, List.modify_nil]
      · obtain ⟨entry, hentry, heq, -⟩ := getElem?_track hentry'
        rw [heq]
        exact h.entries i entry hentry
    have hconcerns : FileEffect.Concerns descriptors (.request request accepted) := by
      rw [hrequest]
      exact hlt
    rw [hsend]
    cases accepted <;> exact (htracked.emit hconcerns).of_eq rfl rfl rfl

theorem Reports.finish (h : s.Reports descriptors base) : s.finish.Reports descriptors base := by
  have hunlocked : ({ s with
      downloading := false
      ourLockActive := s.ourLockActive && !s.cliprdr } : CliprdrFile).Reports descriptors base :=
    h.of_eq rfl rfl rfl
  exact hunlocked.emit trivial

/-- An entry is reported as done. -/
theorem Reports.emitDone (h : s.Reports descriptors base)
    (hdescriptors : s.descriptors = descriptors) {i : ℕ} {entry : DownloadEntry}
    (hentry : MadeFrom descriptors i entry) (size : UInt64) :
    (s.emitDone i entry size).Reports descriptors base := by
  obtain ⟨hindex, tempDir, descriptor, hdescriptor, hpath⟩ := hentry
  refine h.emit ⟨tempDir, descriptor, ?_, ?_, hpath, ?_⟩
  · rw [hindex, hdescriptor]
  · rw [hdescriptors, hdescriptor]
    rfl
  · rw [hdescriptors, hdescriptor]

theorem Reports.emitError (h : s.Reports descriptors base) {fileIndex : ℕ}
    (hlt : fileIndex < descriptors.length) (text : String) :
    (s.emit (.error fileIndex text)).Reports descriptors base :=
  h.emit hlt

theorem Reports.giveUp (h : s.Reports descriptors base) {fileIndex : ℕ}
    (hlt : fileIndex < descriptors.length) : (s.giveUp fileIndex).Reports descriptors base := by
  have hcomplete : ({ s with
      downloads := s.downloads.modify s.current fun entry ↦ { entry with complete := true }
      } : CliprdrFile).Reports descriptors base := by
    refine h.of_downloads rfl (fun hnil ↦ ?_) (h.entries.modify_complete lasting_madeFrom _ rfl) rfl
    rw [hnil, List.modify_nil]
  exact hcomplete.emitError hlt sizeRequestFailed

/-- **The loop.** -/
theorem Reports.startNext (h : s.Reports descriptors base) (accepts : ℕ → Bool) (n : ℕ) :
    (startNext accepts n s).Reports descriptors base := by
  refine startNext_rule
    (motive := fun s t ↦ s.Reports descriptors base → t.Reports descriptors base) (fun s h ↦ ?_)
    (fun s entry _ _ _ hentry h ↦ ?_) (fun s t hnext h ↦ ?_) (fun s t entry hentry hnext h ↦ ?_)
    (fun s t entry hentry hnext h ↦ ?_) n s h
  · exact h.finish
  · exact h.send (h.entries _ _ hentry).lt_length _ _ _ _
  · exact hnext (h.of_eq rfl rfl rfl)
  · -- a directory
    have hmade := h.entries _ _ hentry
    have hset : (s.setEntry s.current { entry with complete := true }).Reports descriptors base :=
      h.setEntry hmade
    have hdone := hset.emitDone (h.descriptors_eq hentry) hmade 0
    exact hnext (hdone.of_eq rfl rfl rfl)
  · -- the size cannot be asked for
    have hlt := (h.entries _ _ hentry).lt_length
    have hsent := h.send hlt .size 0 8 (accepts entry.fileIndex)
    exact hnext ((hsent.giveUp hlt).of_eq rfl rfl rfl)

theorem Reports.startNextDownload (h : s.Reports descriptors base) (accepts : ℕ → Bool) :
    (s.startNextDownload accepts).Reports descriptors base :=
  h.startNext accepts _

/-- An entry is ended. -/
theorem Reports.finishEntry (h : s.Reports descriptors base) {i : ℕ} {entry : DownloadEntry}
    (hentry : MadeFrom descriptors i entry) {report : CliprdrFile → CliprdrFile}
    (hreport : ∀ u : CliprdrFile, u.Reports descriptors base → u.descriptors = s.descriptors →
      (report u).Reports descriptors base) (accepts : ℕ → Bool) :
    (s.finishEntry i entry report accepts).Reports descriptors base := by
  have hset : (s.setEntry i { entry with complete := true }).Reports descriptors base :=
    h.setEntry hentry
  have hadvanced : (report (s.setEntry i { entry with complete := true })).advance.Reports
      descriptors base := (hreport _ hset rfl).of_eq rfl rfl rfl
  exact hadvanced.startNextDownload accepts

theorem Reports.receiveSize (h : s.Reports descriptors base)
    (hdescriptors : s.descriptors = descriptors) {i : ℕ} {entry : DownloadEntry}
    (hentry : MadeFrom descriptors i entry) (size : UInt64) (surroundings : Surroundings) :
    (s.receiveSize i entry size surroundings).Reports descriptors base := by
  have hwritten : (s.writeFile entry.tempPath []).Reports descriptors base := h.of_eq rfl rfl rfl
  rw [CliprdrFile.receiveSize]
  dsimp only
  split
  · -- an empty file
    refine Reports.finishEntry ?_ ?_ (fun u hu hsame ↦ ?_) _
    · split
      · exact hwritten
      · exact h
    · exact hentry
    · refine hu.emitDone (hsame.trans ?_) hentry 0
      split <;> exact hdescriptors
  · split
    · refine Reports.startNextDownload (hwritten.setEntry ?_) _
      exact hentry
    · refine h.finishEntry ?_ (fun u hu _ ↦ ?_) _
      · exact hentry
      · exact hu.emitError hentry.lt_length _

theorem Reports.receiveRange (h : s.Reports descriptors base)
    (hdescriptors : s.descriptors = descriptors) {i : ℕ} {entry : DownloadEntry}
    (hentry : MadeFrom descriptors i entry) (data : List UInt8) (surroundings : Surroundings) :
    (s.receiveRange i entry data surroundings).Reports descriptors base := by
  have hwritten (contents : List UInt8) :
      (s.writeFile entry.tempPath contents).Reports descriptors base := h.of_eq rfl rfl rfl
  have hprogress (contents : List UInt8) (transferred total : UInt64) (files : ℕ) :
      ((s.writeFile entry.tempPath contents).emit
        (.progress entry.fileIndex transferred total files)).Reports descriptors base :=
    (hwritten contents).emit hentry.lt_length
  rw [CliprdrFile.receiveRange]
  dsimp only
  split
  · refine (hprogress _ _ _ _).finishEntry ?_ (fun u hu hsame ↦ ?_) _
    · exact hentry
    · exact hu.emitDone (hsame.trans hdescriptors) hentry _
  · refine Reports.send ((hprogress _ _ _ _).setEntry ?_) hentry.lt_length _ _ _ _
    exact hentry

/-- **An answer for an entry.** -/
theorem Reports.receive (h : s.Reports descriptors base) {i : ℕ} {entry : DownloadEntry}
    (hentry : s.downloads[i]? = some entry) (response : ContentsResponse)
    (surroundings : Surroundings) :
    (s.receive i entry response surroundings).Reports descriptors base := by
  have hmade := h.entries i entry hentry
  have hdescriptors := h.descriptors_eq hentry
  rw [CliprdrFile.receive]
  split
  · exact h.finishEntry hmade (fun u hu _ ↦ hu.emitError hmade.lt_length _) _
  · split
    · exact h.receiveSize hdescriptors hmade _ _
    · split
      · exact h
      · exact h
      · split
        · exact h.receiveRange hdescriptors hmade _ _
        · exact h

theorem Reports.fileContentsResponse (h : s.Reports descriptors base) (response : ContentsResponse)
    (surroundings : Surroundings) :
    (s.fileContentsResponse response surroundings).Reports descriptors base := by
  rcases fileContentsResponse_eq s response surroundings with ⟨heq, -⟩ |
    ⟨-, i, entry, -, hentry, heq⟩
  · rw [heq]
    exact h
  · rw [heq]
    exact h.receive hentry response surroundings

/-- The entries of a download are made from the descriptors. -/
theorem madeFrom_newDownloads (tempDir : Path) (descriptors : List FileDescriptor) {i : ℕ}
    {entry : DownloadEntry} (hentry : (newDownloads tempDir descriptors)[i]? = some entry) :
    MadeFrom descriptors i entry := by
  rw [newDownloads, List.getElem?_mapIdx] at hentry
  obtain ⟨descriptor, hdescriptor, rfl⟩ := Option.map_eq_some_iff.1 hentry
  exact ⟨rfl, tempDir, descriptor, hdescriptor, rfl⟩

theorem Reports.requestDownload (h : s.Reports descriptors base) (tempDir : Path)
    (accepts : ℕ → Bool) : (s.requestDownload tempDir accepts).Reports descriptors base := by
  rw [CliprdrFile.requestDownload]
  split
  · exact h
  · next hgo =>
    have hdescriptors : s.descriptors = descriptors := by
      refine h.listed.resolve_right fun hnone ↦ hgo ?_
      rw [hnone.1, List.isEmpty_nil, Bool.or_true]
    have hqueued : ({ s.freeDownloads with
        downloads := newDownloads tempDir s.descriptors
        downloading := true } : CliprdrFile).Reports descriptors base := by
      refine ⟨.inl hdescriptors, fun i entry hentry ↦ ?_, h.history⟩
      rw [← hdescriptors]
      exact madeFrom_newDownloads tempDir s.descriptors hentry
    have hstarted := hqueued.emit (show FileEffect.Concerns descriptors .started from trivial)
    exact hstarted.startNextDownload accepts

end CliprdrFile

/-! ### Runs -/

/-- The clipboard, with the sizes of the descriptors. -/
abbrev listedSystem (parseFileList : List UInt8 → List SizedDescriptor) :
    StepSystem Clipboard DownloadAction :=
  downloadSystem fun data ↦ (parseFileList data).map SizedDescriptor.toFileDescriptor

/-- Descriptors arrive. -/
def ListArrives (s : Clipboard) : DownloadAction → Prop
  | .call (.dataResponse response) =>
    ∃ data, (s.channel.formatDataResponse response).1 = some (.files data)
  | _ => False

section Runs

variable {parseFileList : List UInt8 → List FileDescriptor} {descriptors : List FileDescriptor}
  {base : List FileEffect} {s t : Clipboard}

/-- **One step** other than the arrival of descriptors. -/
theorem reports_step {action : DownloadAction} (h : s.file.Reports descriptors base)
    (hkept : ¬ListArrives s action)
    (hstep : (downloadSystem parseFileList).step s action = some t) :
    t.file.Reports descriptors base := by
  have hfreed {u : CliprdrFile} (hdownloads : u.downloads = [])
      (hdescriptors : u.descriptors = s.file.descriptors ∨ u.descriptors = [])
      (hhistory : u.history = s.file.history) : u.Reports descriptors base := by
    refine ⟨?_, .of_nil hdownloads, ?_⟩
    · rcases hdescriptors with heq | hnil
      · rw [heq, hdownloads]
        exact h.listed.imp_right fun hnone ↦ ⟨hnone.1, rfl⟩
      · exact .inr ⟨hnil, hdownloads⟩
    · rw [hhistory]
      exact h.history
  cases action with
  | contents response surroundings =>
    obtain rfl := Option.some.inj hstep
    exact h.fileContentsResponse response surroundings
  | call call =>
    obtain rfl := Option.some.inj hstep
    cases call with
    | channelConnected => exact h.of_eq rfl rfl rfl
    | channelDisconnected => exact hfreed rfl (.inl rfl) rfl
    | monitorReady => exact h
    | formatList formats acknowledged sent =>
      rw [Clipboard.call]
      dsimp only
      split
      · exact hfreed rfl (.inr rfl) rfl
      · exact h
    | dataResponse response =>
      rw [Clipboard.call]
      dsimp only
      split
      · next data hfiles => exact absurd ⟨data, hfiles⟩ hkept
      · exact h
    | requestDownload tempDir accepts => exact h.requestDownload tempDir accepts

/-- **Whatever happens until the next list arrives**, the indices are those of the descriptors. -/
theorem reports_run {actions : List DownloadAction} (h : s.file.Reports descriptors base)
    (hkept : (downloadSystem parseFileList).StepsMeet (fun s action ↦ ¬ListArrives s action) s
      actions) (hrun : (downloadSystem parseFileList).run s actions = some t) :
    t.file.Reports descriptors base :=
  StepSystem.run_invariant_of_stepsMeet (P := fun s : Clipboard ↦ s.file.Reports descriptors base)
    (fun _ _ _ h hkept hstep ↦ reports_step h hkept hstep) h hkept hrun

/-- While descriptors are awaited there are none, and no entries. -/
def AwaitsList (s : Clipboard) : Prop :=
  s.channel.pendingFgd = true → s.file.descriptors = [] ∧ s.file.downloads = []

theorem pendingFgd_request (channel : Cliprdr) (sent : Bool) (request : DataRequest) :
    (channel.request sent request).pendingFgd = channel.pendingFgd := by
  cases sent <;> rfl

/-- Only data is taken for descriptors, and only if descriptors are awaited. -/
theorem pendingFgd_formatDataResponse (channel : Cliprdr) (response : DataResponse) :
    ((channel.formatDataResponse response).1 = none ∧
        ((channel.formatDataResponse response).2.pendingFgd = true → channel.pendingFgd = true)) ∨
      (channel.formatDataResponse response).2.pendingFgd = false ∧
        ∀ data, (channel.formatDataResponse response).1 = some (.files data) →
          channel.pendingFgd = true := by
  rw [Cliprdr.formatDataResponse]
  split
  · exact .inl ⟨rfl, fun hpending ↦ absurd hpending Bool.false_ne_true⟩
  · split
    · exact .inl ⟨rfl, id⟩
    · exact .inl ⟨rfl, id⟩
    · refine .inr ⟨rfl, fun data hfiles ↦ ?_⟩
      by_contra hpending
      rw [Bool.not_eq_true] at hpending
      rw [hpending] at hfiles
      cases hfiles

theorem awaitsList_step {action : DownloadAction} (h : AwaitsList s)
    (hstep : (downloadSystem parseFileList).step s action = some t) : AwaitsList t := by
  cases action with
  | contents response surroundings =>
    obtain rfl := Option.some.inj hstep
    intro hpending
    obtain ⟨hdescriptors, hdownloads⟩ := h hpending
    dsimp only
    rw [CliprdrFile.fileContentsResponse,
      if_pos (by rw [hdownloads, List.isEmpty_nil, Bool.or_true])]
    exact ⟨hdescriptors, hdownloads⟩
  | call call =>
    obtain rfl := Option.some.inj hstep
    cases call with
    | channelConnected => exact fun hpending ↦ absurd hpending Bool.false_ne_true
    | channelDisconnected => exact fun hpending ↦ absurd hpending Bool.false_ne_true
    | monitorReady => exact fun hpending ↦ absurd hpending Bool.false_ne_true
    | formatList formats acknowledged sent =>
      intro hpending
      rw [Clipboard.call] at hpending ⊢
      dsimp only at hpending ⊢
      split
      case isTrue => exact ⟨rfl, rfl⟩
      case isFalse hother =>
        refine h ?_
        rw [Cliprdr.formatList] at hpending
        cases acknowledged with
        | false => exact hpending
        | true =>
          rw [if_neg (by decide), if_neg (fun hfiles ↦ hother ⟨rfl, hfiles⟩)] at hpending
          split at hpending
          · rwa [pendingFgd_request] at hpending
          · exact hpending
    | dataResponse response =>
      intro hpending
      rw [Clipboard.call] at hpending ⊢
      dsimp only at hpending ⊢
      rcases pendingFgd_formatDataResponse s.channel response with ⟨hnone, hstays⟩ | ⟨hcleared, -⟩
      · rw [hnone]
        exact h (hstays hpending)
      · cases hcleared.symm.trans hpending
    | requestDownload tempDir accepts =>
      intro hpending
      obtain ⟨hdescriptors, hdownloads⟩ := h hpending
      rw [Clipboard.call, CliprdrFile.requestDownload_of_descriptors_eq_nil hdescriptors]
      exact ⟨hdescriptors, hdownloads⟩

/-- **When descriptors arrive** there are no entries of others. -/
theorem reports_arrival {before : List DownloadAction}
    (hrun : (downloadSystem parseFileList).run {} before = some s) {response : DataResponse}
    {data : List UInt8}
    (harrives : (s.channel.formatDataResponse response).1 = some (.files data)) :
    (s.call parseFileList (.dataResponse response)).file.Reports (parseFileList data)
      (s.call parseFileList (.dataResponse response)).file.history := by
  have hawaits : AwaitsList s :=
    StepSystem.run_invariant (P := AwaitsList) (fun _ _ _ h hstep ↦ awaitsList_step h hstep)
      (fun _ ↦ ⟨rfl, rfl⟩) hrun
  rcases pendingFgd_formatDataResponse s.channel response with ⟨hnone, -⟩ | ⟨-, hpending⟩
  · cases hnone.symm.trans harrives
  · obtain ⟨-, hdownloads⟩ := hawaits (hpending data harrives)
    rw [Clipboard.call]
    dsimp only
    rw [harrives]
    exact ⟨.inl rfl, .of_nil hdownloads, [], (List.append_nil _).symm,
      fun effect hmem ↦ absurd hmem List.not_mem_nil⟩

end Runs

/-! ### The exact condition -/

variable {parseFileList : List UInt8 → List SizedDescriptor} {s : Clipboard}

/-- **Positions and indices agree** for descriptors that have arrived: the list has one element for
each, and until the next list arrives, whatever is reported with an index is about the descriptor
that the element at this position is made from. -/
structure PositionsAgree (parseFileList : List UInt8 → List SizedDescriptor) (s : Clipboard)
    (descriptors : List SizedDescriptor) : Prop where
  length : (fileList descriptors).length = descriptors.length
  reports : ∀ actions t,
    (listedSystem parseFileList).StepsMeet (fun s action ↦ ¬ListArrives s action) s actions →
    (listedSystem parseFileList).run s actions = some t →
    ∃ effects, t.file.history = s.file.history ++ effects ∧ ∀ effect ∈ effects,
      effect.Concerns (descriptors.map SizedDescriptor.toFileDescriptor) ∧
        ∀ k, effect.reportIndex = some k → ∃ file, (listFrom 0 descriptors)[k]? = some (k, file)

/-- **The exact condition.** -/
theorem filePositions_iff {before : List DownloadAction}
    (hrun : (listedSystem parseFileList).run {} before = some s) {response : DataResponse}
    {data : List UInt8}
    (harrives : (s.channel.formatDataResponse response).1 = some (.files data)) :
    PositionsAgree parseFileList
        (s.call (fun data ↦ (parseFileList data).map SizedDescriptor.toFileDescriptor)
          (.dataResponse response)) (parseFileList data) ↔
      ∀ descriptor ∈ parseFileList data, descriptor.utf8Name ≠ none := by
  refine ⟨fun h ↦ (length_fileList_iff _).1 h.length, fun h ↦
    ⟨(length_fileList_iff _).2 h, fun actions t hkept hactions ↦ ?_⟩⟩
  have hreports := reports_run (reports_arrival hrun harrives) hkept hactions
  obtain ⟨effects, heffects, hconcerns⟩ := hreports.history
  refine ⟨effects, heffects, fun effect hmem ↦ ⟨hconcerns effect hmem, fun k hk ↦ ?_⟩⟩
  have hlt := (hconcerns effect hmem).lt_length hk
  rw [List.length_map] at hlt
  obtain ⟨file, hfile⟩ := getElem?_listFrom h 0 hlt
  rw [Nat.zero_add] at hfile
  exact ⟨file, hfile⟩

/-- The server announces files and is asked for their descriptors. -/
def filesAnnounced : List DownloadAction :=
  [.call .channelConnected, .call (.formatList [⟨49270, some "FileGroupDescriptorW"⟩] true true)]

/-- A list of one file, of one byte. -/
def oneNamed : List SizedDescriptor :=
  [⟨⟨0, some [0x61]⟩, 0, 1⟩]

/-- The list of one file with a name. -/
theorem filePositions_oneNamed :
    ∃ s, (listedSystem fun _ ↦ oneNamed).run {} filesAnnounced = some s ∧
      (s.channel.formatDataResponse ⟨true, some [1]⟩).1 = some (.files [1]) ∧
      PositionsAgree (fun _ ↦ oneNamed) (s.call (fun _ ↦
        oneNamed.map SizedDescriptor.toFileDescriptor) (.dataResponse ⟨true, some [1]⟩))
        oneNamed := by
  have hnames : ∀ descriptor ∈ oneNamed, descriptor.utf8Name ≠ none := by
    rintro descriptor (_ | ⟨_, _, ⟨⟩⟩) hnone
    cases hnone
  exact ⟨_, rfl, rfl,
    (@filePositions_iff (fun _ ↦ oneNamed) _ filesAnnounced rfl _ _ rfl).2 hnames⟩

/-- A file whose name cannot be converted, and a file with a name. -/
def firstUnnamed : List SizedDescriptor :=
  [⟨⟨0, none⟩, 0, 0⟩, ⟨⟨0, some [0x62]⟩, 0, 1⟩]

/-- The files are downloaded, and the size of the first comes. -/
def firstDownloaded : List DownloadAction :=
  [.call (.requestDownload [0x74] fun _ ↦ true),
    .contents ⟨1, true, some [0, 0, 0, 0, 0, 0, 0, 0]⟩ ⟨fun _ ↦ true, true, 0⟩]

/-- **The list names another file**: its element at position 0 is the second file, and what is
reported of the file with index 0 is that the first one is saved. -/
theorem fileList_firstUnnamed :
    fileList firstUnnamed = [⟨[0x62], 1, false⟩] ∧
      ∃ s t, (listedSystem fun _ ↦ firstUnnamed).run {} filesAnnounced = some s ∧
        (s.channel.formatDataResponse ⟨true, some [1]⟩).1 = some (.files [1]) ∧
        (listedSystem fun _ ↦ firstUnnamed).run (s.call (fun _ ↦
          firstUnnamed.map SizedDescriptor.toFileDescriptor) (.dataResponse ⟨true, some [1]⟩))
          firstDownloaded = some t ∧
        .done 0 false (utf8 "t/unknown") [] 0 (some []) ∈ t.file.history ∧
        ¬PositionsAgree (fun _ ↦ firstUnnamed) (s.call (fun _ ↦
          firstUnnamed.map SizedDescriptor.toFileDescriptor) (.dataResponse ⟨true, some [1]⟩))
          firstUnnamed := by
  refine ⟨by decide, _, _, rfl, rfl, rfl, by decide, fun h ↦ ?_⟩
  have hlength := h.length
  revert hlength
  decide

end RdpMcp
