import RdpMcp.Native.RangeRequests

/-!
# A download that is going on waits for an answer

The queue goes on only when an answer comes. So while a download is going on, exactly one of its
requests should be on its way, and for the file under the cursor (`InFlight`); otherwise the queue
stands still, and the server's clipboard stays locked.

The loop makes sure of that for sizes: if a size cannot be asked for, it goes on to the next file.
**For pieces nobody looks**: the result of the request for the first piece is only logged, that for
a later piece is ignored, and an answer without data is dropped without asking again. `inFlight_iff`
is the exact condition, for answers that find the entry they are for (`MatchedStep`), which all do
until the stream identifiers begin again, after `2 ^ 31 - 1` requests.

Requests of a download that has been given up are kept apart. Their answers may still come; nobody
waits for them.
-/

open ListUpdate

namespace RdpMcp

/-! ### A server that answers what has been asked -/

/-- The clipboard modules, whose requests are those of the download that is going on, and the
requests of the downloads before that have not been answered. -/
structure Awaiting where
  clipboard : Clipboard := {}
  abandoned : List ContentsRequest := []

inductive AwaitingAction where
  | call (call : ClipboardCall)
  /-- An answer to a request of the download that is going on. -/
  | answer (k : ℕ) (ok : Bool) (data : Option (List UInt8)) (surroundings : Surroundings)
  /-- An answer to a request of a download that has been given up. -/
  | lateAnswer (k : ℕ) (ok : Bool) (data : Option (List UInt8)) (surroundings : Surroundings)

/-- The call gives up the download that is going on. -/
def Clipboard.givesUp (s : Clipboard) : ClipboardCall → Bool
  | .channelDisconnected => true
  | .formatList formats acknowledged _ => acknowledged && (offerOf formats).fgdFormatId != 0
  | .requestDownload _ _ => s.file.cliprdr && !s.file.descriptors.isEmpty
  | _ => false

/-- What the server has accepted and not answered. -/
def Clipboard.setRequests (s : Clipboard) (requests : List ContentsRequest) : Clipboard :=
  { s with file := { s.file with requests } }

/-- `cb_server_file_contents_response`. -/
def Clipboard.contents (s : Clipboard) (response : ContentsResponse)
    (surroundings : Surroundings) : Clipboard :=
  { s with file := s.file.fileContentsResponse response surroundings }

/-- The clipboard with a server that answers every accepted request at most once, as it likes. -/
def awaitingSystem (parseFileList : List UInt8 → List FileDescriptor) :
    StepSystem Awaiting AwaitingAction where
  step s
    | .call call =>
      if s.clipboard.givesUp call then
        some
          { clipboard := (s.clipboard.setRequests []).call parseFileList call
            abandoned := s.abandoned ++ s.clipboard.file.requests }
      else some { s with clipboard := s.clipboard.call parseFileList call }
    | .answer k ok data surroundings =>
      match s.clipboard.file.requests[k]? with
      | none => none
      | some request =>
        let clipboard := s.clipboard.setRequests (s.clipboard.file.requests.eraseIdx k)
        some { s with clipboard := clipboard.contents ⟨request.streamId, ok, data⟩ surroundings }
    | .lateAnswer k ok data surroundings =>
      match s.abandoned[k]? with
      | none => none
      | some request =>
        some
          { clipboard := s.clipboard.contents ⟨request.streamId, ok, data⟩ surroundings
            abandoned := s.abandoned.eraseIdx k }

namespace CliprdrFile

variable {s t u : CliprdrFile}

/-- **A download that is going on** waits for the answer to exactly one request, which is for the
entry under the cursor. -/
def InFlight (s : CliprdrFile) : Prop :=
  s.downloading = true → ∃ entry request, s.downloads[s.current]? = some entry ∧
    s.requests = [request] ∧ request.listIndex = s.current ∧ request.streamId = entry.streamId

theorem inFlight_of_not_downloading (h : s.downloading = false) : s.InFlight := fun htrue ↦ by
  cases h.symm.trans htrue

/-- Two states with the same queue in the same place, and the same requests. -/
theorem InFlight.of_eq (h : s.InFlight) (hdownloads : t.downloads = s.downloads)
    (hcurrent : t.current = s.current) (hdownloading : t.downloading = s.downloading)
    (hrequests : t.requests = s.requests) : t.InFlight := by
  rw [InFlight, hdownloads, hcurrent, hdownloading, hrequests]
  exact h

/-- The answer keeps the download going. If it does not end its entry, then it brings a piece, or
the size of a file; and the request for the next piece is accepted. -/
def Sustains (s : CliprdrFile) (entry : DownloadEntry) (response : ContentsResponse)
    (surroundings : Surroundings) : Prop :=
  ¬Ends entry response surroundings →
    if entry.sizeReceived then
      response.data.getD [] ≠ [] ∧ surroundings.accepts s.current = true
    else
      s.descriptors[s.current]?.any FileDescriptor.isDirectory = true ∨
        surroundings.accepts s.current = true

/-! ### The queue -/

/-- A state between two calls: what is behind the cursor has not been reached. -/
structure Orderly (s : CliprdrFile) : Prop where
  askable : s.Askable
  stands : s.Stands
  fp : s.EachEntry fun _ entry ↦
    entry.sizeReceived = true → entry.complete = false → entry.fp = true
  ahead : ∀ (i : ℕ) (entry : DownloadEntry), s.downloads[i]? = some entry → s.current < i →
    entry.sizeReceived = false

theorem lasting_fp : Lasting fun _ entry ↦
    entry.sizeReceived = true → entry.complete = false → entry.fp = true :=
  ⟨fun _ _ _ h ↦ h, fun _ _ _ _ hfalse ↦ nomatch hfalse⟩

/-- **The loop** leaves a request in flight exactly if the one for the entry at which it stops is
accepted. -/
theorem inFlight_startNextDownload_iff {accepts : ℕ → Bool} (haskable : u.EachEntry Sized)
    (hcliprdr : u.cliprdr = true) (hdownloading : u.downloading = true)
    (hrequests : u.requests = []) :
    (u.startNextDownload accepts).InFlight ↔
      ∀ i entry, u.StopsAt accepts u.current i entry → accepts i = true := by
  have hindexed : u.Indexed := fun i entry hentry ↦ (haskable i entry hentry).fileIndex
  cases looped_startNextDownload accepts hcliprdr hindexed with
  | finished hpasses hdone _ _ =>
    exact iff_of_true (inFlight_of_not_downloading hdone) fun i entry hstops ↦
      absurd (hpasses i hstops.le) hstops.not_passes
  | stopped i entry request hstops hrequest hcurrent hdownloading' hentry _ hrequests' _ =>
    have hunique : (∀ j other, u.StopsAt accepts u.current j other → accepts j = true) ↔
        accepts i = true := by
      refine ⟨fun h ↦ h i entry hstops, fun h j other hother ↦ ?_⟩
      obtain ⟨rfl, -⟩ := hstops.unique hother
      exact h
    rw [hunique, InFlight, hcurrent, hdownloading', hentry, hrequests', hrequests, List.nil_append]
    constructor
    · intro h
      obtain ⟨entry', request', -, hlist, -⟩ := h hdownloading
      by_contra haccepts
      rw [if_neg haccepts] at hlist
      cases hlist
    · intro haccepts _
      exact ⟨_, request, rfl, if_pos haccepts, hrequest.1, rfl⟩

theorem complete_eq_false_of_stands (hstands : s.Stands) (hdownloading : s.downloading = true)
    {entry : DownloadEntry} (hentry : s.downloads[s.current]? = some entry) :
    entry.complete = false := by
  have hflag := hstands.1 hdownloading
  rw [flags, List.getElem?_map, hentry] at hflag
  exact Option.some.inj hflag

/-- **An answer for the entry under the cursor**, whose request was the only one. -/
theorem inFlight_receive_iff (h : s.Orderly) (hdownloading : s.downloading = true)
    {entry : DownloadEntry} (hentry : s.downloads[s.current]? = some entry)
    (hrequests : s.requests = []) (response : ContentsResponse) (surroundings : Surroundings) :
    (s.receive s.current entry response surroundings).InFlight ↔
      s.Sustains entry response surroundings := by
  have hcliprdr := h.askable.cliprdr (List.ne_nil_of_mem (List.mem_of_getElem? hentry))
  have hsized := h.askable.sized _ _ hentry
  have hcomplete := complete_eq_false_of_stands h.stands hdownloading hentry
  -- what is ahead has no size yet
  have hahead {u : CliprdrFile} {current : ℕ} {entry' : DownloadEntry}
      (hchanged : Changed s u current s.current entry') {i : ℕ} {other : DownloadEntry}
      {accepts : ℕ → Bool} {start : ℕ} (hstops : u.StopsAt accepts start i other)
      (hlt : s.current < i) : accepts i = true := by
    refine hstops.accepts (h.ahead i other ?_ hlt)
    rw [← hstops.getElem?, hchanged.downloads, List.getElem?_set_ne (by omega)]
  have hloop {u : CliprdrFile} {current : ℕ} {entry' : DownloadEntry}
      (hchanged : Changed s u current s.current entry') (hentry' : Sized s.current entry') :
      (u.startNextDownload surroundings.accepts).InFlight ↔ ∀ i other,
        u.StopsAt surroundings.accepts current i other → surroundings.accepts i = true := by
    rw [inFlight_startNextDownload_iff (hchanged.eachEntry h.askable.sized hentry')
      (hchanged.cliprdr.trans hcliprdr) (hchanged.downloading.trans hdownloading)
      (hchanged.requests.trans hrequests), hchanged.current]
  cases received_receive (s := s) (i := s.current) response surroundings with
  | ended u entry' hends hcomplete' hindex hsize hchanged ht =>
    rw [ht, hloop hchanged (hsized.ended hcomplete' hindex hsize)]
    exact iff_of_true (fun i other hstops ↦ hahead hchanged hstops hstops.le) fun hnot ↦
      absurd hends hnot
  | opened u hends hsize hpos hchanged ht =>
    rw [ht, hloop hchanged (hsized.opened hsize hpos), Sustains, hsize, if_neg Bool.false_ne_true]
    obtain ⟨hlength, -⟩ := List.getElem?_eq_some_iff.1 hentry
    have hhere : u.downloads[s.current]? =
        some { entry with totalSize := response.size, sizeReceived := true, fp := true } := by
      rw [hchanged.downloads, List.getElem?_set_self hlength]
    constructor
    · intro haccepts _
      cases hdirectory : s.descriptors[s.current]?.any FileDescriptor.isDirectory with
      | true => exact .inl rfl
      | false =>
        rw [← hchanged.descriptors] at hdirectory
        exact .inr (haccepts _ _ (.of_passes_lt hhere hcomplete hdirectory nofun))
    · intro hsustains i other hstops
      rcases Nat.eq_or_lt_of_le hstops.le with rfl | hlt
      · refine (hsustains hends).resolve_left fun hdirectory ↦ ?_
        rw [← hchanged.descriptors] at hdirectory
        cases hstops.directory.symm.trans hdirectory
      · exact hahead hchanged hstops hlt
  | ignored hends hsize hnothing ht =>
    rw [ht, Sustains, hsize, if_pos rfl]
    refine iff_of_false (fun h ↦ ?_) fun hsustains ↦ ?_
    · obtain ⟨entry', request', -, hlist, -⟩ := h hdownloading
      cases hrequests.symm.trans hlist
    · rcases hnothing with hnothing | hfp
      · exact (hsustains hends).1 hnothing
      · cases (h.fp _ _ hentry hsize hcomplete).symm.trans hfp
  | continued u data hends hsize hdata hne hfp hlt hchanged ht =>
    obtain ⟨hlength, -⟩ := List.getElem?_eq_some_iff.1 hentry
    have hhere : u.downloads[s.current]? = some (received entry data surroundings.writes) := by
      rw [hchanged.downloads, List.getElem?_set_self hlength]
    obtain ⟨-, hsent⟩ := sent_send (hchanged.cliprdr.trans hcliprdr) hhere .range
      (received entry data surroundings.writes).bytesReceived
      (nextChunk (received entry data surroundings.writes)) (surroundings.accepts s.current)
    rw [ht, hsized.fileIndex, Sustains, hsize, if_pos rfl, hdata, InFlight, hsent.downloading,
      hsent.current, hsent.downloads, hsent.requests, hchanged.requests, hrequests,
      hchanged.current, hchanged.downloading]
    constructor
    · intro h _
      obtain ⟨entry', request', -, hlist, -⟩ := h hdownloading
      refine ⟨hne, ?_⟩
      by_contra haccepts
      rw [if_neg haccepts] at hlist
      cases hlist
    · intro hsustains _
      refine ⟨_, _, List.getElem?_set_self ?_, if_pos (hsustains hends).2, rfl, rfl⟩
      rw [hchanged.downloads, List.length_set]
      exact hlength

/-! ### Orderly queues -/

/-- **The loop** leaves what is behind the cursor as it is. -/
theorem Orderly.startNextDownload {accepts : ℕ → Bool} (hsized : u.EachEntry Sized)
    (hcliprdr : u.cliprdr = true) (hdownloading : u.downloading = true)
    (hfp : u.EachEntry fun _ entry ↦
      entry.sizeReceived = true → entry.complete = false → entry.fp = true)
    (hahead : ∀ (i : ℕ) (entry : DownloadEntry), u.downloads[i]? = some entry → u.current < i →
      entry.sizeReceived = false) : (u.startNextDownload accepts).Orderly := by
  have hstands := (advanced_startNextDownload accepts hdownloading).stands
  refine ⟨.startNextDownload hsized hcliprdr accepts, hstands,
    eachEntry_startNext lasting_fp accepts _ hfp, fun i entry hentry hlt ↦ ?_⟩
  cases looped_startNextDownload accepts hcliprdr
      (fun i entry hentry ↦ (hsized i entry hentry).fileIndex) with
  | finished _ hdone _ _ =>
    -- the cursor is behind all entries
    obtain ⟨hlength, -⟩ := List.getElem?_eq_some_iff.1 hentry
    have hle := hstands.2 hdone
    rw [flags, List.length_map] at hle
    omega
  | stopped j other request hstops _ hcurrent _ _ hbehind _ _ =>
    rw [hcurrent] at hlt
    have hle := hstops.le
    exact hahead i entry ((hbehind i hlt).symm.trans hentry) (by omega)

theorem Orderly.of_eq (h : s.Orderly) (hdownloads : t.downloads = s.downloads)
    (hcurrent : t.current = s.current) (hdownloading : t.downloading = s.downloading)
    (hcliprdr : s.cliprdr = true → t.cliprdr = true) : t.Orderly where
  askable := by
    refine ⟨h.askable.sized.of_downloads_eq hdownloads, fun hne ↦ hcliprdr (h.askable.cliprdr ?_)⟩
    rwa [hdownloads] at hne
  stands := by
    have hsame : SameQueue s t := ⟨congrArg (List.map _) hdownloads, hcurrent, hdownloading⟩
    exact hsame.stands_iff.2 h.stands
  fp := h.fp.of_downloads_eq hdownloads
  ahead := by
    rw [hdownloads, hcurrent]
    exact h.ahead

/-- **An answer for the entry under the cursor** leaves an orderly queue. -/
theorem Orderly.receive (h : s.Orderly) (hdownloading : s.downloading = true)
    {entry : DownloadEntry} (hentry : s.downloads[s.current]? = some entry)
    (response : ContentsResponse) (surroundings : Surroundings) :
    (s.receive s.current entry response surroundings).Orderly := by
  have hcliprdr := h.askable.cliprdr (List.ne_nil_of_mem (List.mem_of_getElem? hentry))
  have hsized := h.askable.sized _ _ hentry
  have hahead {u : CliprdrFile} {current : ℕ} {entry' : DownloadEntry}
      (hchanged : Changed s u current s.current entry') (hle : s.current ≤ current) (i : ℕ)
      (other : DownloadEntry) (hother : u.downloads[i]? = some other) (hlt : u.current < i) :
      other.sizeReceived = false := by
    rw [hchanged.current] at hlt
    refine h.ahead i other ?_ (by omega)
    rw [← hother, hchanged.downloads, List.getElem?_set_ne (by omega)]
  cases received_receive (s := s) (i := s.current) response surroundings with
  | ended u entry' hends hcomplete hindex hsize hchanged ht =>
    rw [ht]
    refine .startNextDownload (hchanged.eachEntry h.askable.sized
      (hsized.ended hcomplete hindex hsize)) (hchanged.cliprdr.trans hcliprdr)
      (hchanged.downloading.trans hdownloading) (hchanged.eachEntry h.fp fun _ hfalse ↦ ?_)
      (hahead hchanged (Nat.le_succ _))
    cases hcomplete.symm.trans hfalse
  | opened u hends hsize hpos hchanged ht =>
    rw [ht]
    exact .startNextDownload (hchanged.eachEntry h.askable.sized (hsized.opened hsize hpos))
      (hchanged.cliprdr.trans hcliprdr) (hchanged.downloading.trans hdownloading)
      (hchanged.eachEntry h.fp fun _ _ ↦ rfl) (hahead hchanged (Nat.le_refl _))
  | ignored hends hsize hnothing ht =>
    rw [ht]
    exact h
  | continued u data hends hsize hdata hne hfp hlt hchanged ht =>
    have hsame : SameQueue s u := by
      refine ⟨?_, hchanged.current, hchanged.downloading⟩
      rw [flags, hchanged.downloads]
      exact map_set_of_eq hentry rfl
    have haskable : (s.receive s.current entry response surroundings).Askable :=
      h.askable.receive hentry response surroundings
    have hfp' : u.EachEntry fun _ entry ↦
        entry.sizeReceived = true → entry.complete = false → entry.fp = true :=
      hchanged.eachEntry h.fp fun _ _ ↦ hfp
    obtain ⟨hlength, -⟩ := List.getElem?_eq_some_iff.1 hentry
    have hhere : u.downloads[s.current]? = some (received entry data surroundings.writes) := by
      rw [hchanged.downloads, List.getElem?_set_self hlength]
    obtain ⟨-, hsent⟩ := sent_send (hchanged.cliprdr.trans hcliprdr) hhere .range
      (received entry data surroundings.writes).bytesReceived
      (nextChunk (received entry data surroundings.writes)) (surroundings.accepts s.current)
    rw [ht] at haskable ⊢
    refine ⟨haskable, (hsame.trans (sameQueue_send _ _ _ _ _ _)).stands_iff.2 h.stands,
      hfp'.send lasting_fp _ _ _ _ _, fun i other hother hlt ↦ ?_⟩
    rw [hsized.fileIndex] at hother hlt
    rw [hsent.current] at hlt
    rw [hsent.downloads, List.getElem?_set_ne (by have := hchanged.current; omega)] at hother
    exact hahead hchanged (Nat.le_refl _) i other hother hlt

/-- A queue that is given up. -/
theorem orderly_of_downloads_eq_nil (h : s.downloads = []) (hdownloading : s.downloading = false) :
    s.Orderly where
  askable := ⟨.of_nil h, fun hne ↦ absurd h hne⟩
  stands := stands_of_downloads_eq_nil h hdownloading
  fp := .of_nil h
  ahead i entry hentry := by
    rw [h] at hentry
    cases hentry

/-- **A download begins** with one request in flight, if it does not end at once. -/
theorem requestDownload_spec_inFlight (hrequests : s.requests = [])
    (tempDir : Path) (accepts : ℕ → Bool) (hgo : (!s.cliprdr || s.descriptors.isEmpty) = false) :
    (s.requestDownload tempDir accepts).Orderly ∧ (s.requestDownload tempDir accepts).InFlight := by
  rw [requestDownload, hgo, if_neg Bool.false_ne_true]
  rw [Bool.or_eq_false_iff, Bool.not_eq_false'] at hgo
  generalize hu : ({ s.freeDownloads with
    downloads := newDownloads tempDir s.descriptors
    downloading := true }.emit .started) = u
  have hfresh (i : ℕ) (entry : DownloadEntry) (hentry : u.downloads[i]? = some entry) :
      Sized i entry ∧ entry.sizeReceived = false := by
    subst hu
    exact sized_newDownloads tempDir s.descriptors hentry
  have hsized : u.EachEntry Sized := fun i entry hentry ↦ (hfresh i entry hentry).1
  have hcliprdr : u.cliprdr = true := by
    subst hu
    exact hgo.1
  have hdownloading : u.downloading = true := by
    subst hu
    rfl
  constructor
  · refine .startNextDownload hsized hcliprdr hdownloading (fun i entry hentry hsize ↦ ?_)
      fun i entry hentry _ ↦ (hfresh i entry hentry).2
    cases (hfresh i entry hentry).2.symm.trans hsize
  · refine (inFlight_startNextDownload_iff hsized hcliprdr hdownloading ?_).2
      fun i entry hstops ↦ hstops.accepts (hfresh i entry hstops.getElem?).2
    subst hu
    exact hrequests

end CliprdrFile

open CliprdrFile

variable {parseFileList : List UInt8 → List FileDescriptor}

/-- **A call that gives up the download** leaves none, or a new one with one request in flight. -/
theorem Clipboard.call_spec_of_givesUp {s : Clipboard} {call : ClipboardCall}
    (hgivesUp : s.givesUp call = true) :
    ((s.setRequests []).call parseFileList call).file.Orderly ∧
      ((s.setRequests []).call parseFileList call).file.InFlight := by
  cases call with
  | channelConnected => cases hgivesUp
  | channelDisconnected =>
    exact ⟨orderly_of_downloads_eq_nil rfl rfl, inFlight_of_not_downloading rfl⟩
  | monitorReady => cases hgivesUp
  | formatList formats acknowledged sent =>
    have hfiles : acknowledged = true ∧ (offerOf formats).fgdFormatId ≠ 0 := by
      simpa [Clipboard.givesUp] using hgivesUp
    rw [Clipboard.call]
    dsimp only
    rw [if_pos hfiles]
    exact ⟨orderly_of_downloads_eq_nil rfl rfl, inFlight_of_not_downloading rfl⟩
  | dataResponse response => cases hgivesUp
  | requestDownload tempDir accepts =>
    refine requestDownload_spec_inFlight rfl tempDir accepts ?_
    rw [Clipboard.givesUp, Bool.and_eq_true, Bool.not_eq_true'] at hgivesUp
    rw [Clipboard.setRequests, hgivesUp.1, hgivesUp.2]
    rfl

/-- **Any other call** leaves the queue and its requests as they are. -/
theorem Clipboard.call_spec_of_not_givesUp {s : Clipboard} {call : ClipboardCall}
    (hgivesUp : s.givesUp call = false) (h : s.file.Orderly) :
    (s.call parseFileList call).file.Orderly ∧
      (s.file.InFlight → (s.call parseFileList call).file.InFlight) := by
  have hsame {t : CliprdrFile} (hdownloads : t.downloads = s.file.downloads)
      (hcurrent : t.current = s.file.current) (hdownloading : t.downloading = s.file.downloading)
      (hrequests : t.requests = s.file.requests)
      (hcliprdr : s.file.cliprdr = true → t.cliprdr = true) :
      t.Orderly ∧ (s.file.InFlight → t.InFlight) :=
    ⟨h.of_eq hdownloads hcurrent hdownloading hcliprdr,
      fun hinFlight ↦ hinFlight.of_eq hdownloads hcurrent hdownloading hrequests⟩
  cases call with
  | channelConnected => exact hsame rfl rfl rfl rfl fun _ ↦ rfl
  | channelDisconnected => cases hgivesUp
  | monitorReady => exact ⟨h, id⟩
  | formatList formats acknowledged sent =>
    have hother : ¬(acknowledged = true ∧ (offerOf formats).fgdFormatId ≠ 0) := by
      simpa [Clipboard.givesUp] using hgivesUp
    rw [Clipboard.call]
    dsimp only
    rw [if_neg hother]
    exact ⟨h, id⟩
  | dataResponse response =>
    rw [Clipboard.call]
    dsimp only
    split
    · exact hsame rfl rfl rfl rfl id
    · exact ⟨h, id⟩
  | requestDownload tempDir accepts =>
    have hstay : (!s.file.cliprdr || s.file.descriptors.isEmpty) = true := by
      rw [← Bool.not_eq_false, Bool.or_eq_false_iff, Bool.not_eq_false']
      rintro ⟨hcliprdr, hempty⟩
      rw [Clipboard.givesUp, hcliprdr, hempty] at hgivesUp
      cases hgivesUp
    rw [Clipboard.call, CliprdrFile.requestDownload, if_pos hstay]
    exact ⟨h, id⟩

/-! ### The exact condition -/

/-- **Answers find the entry they are for**: that under the cursor if the request is one of the
download that is going on, and none if it is one of a download that has been given up. -/
def MatchedStep (s : Awaiting) : AwaitingAction → Prop
  | .call _ => True
  | .answer k _ _ _ => s.clipboard.file.downloading = true →
      ∀ request, s.clipboard.file.requests[k]? = some request →
        ∀ i entry, s.clipboard.file.entryOf request.streamId = some (i, entry) →
          i = s.clipboard.file.current
  | .lateAnswer k _ _ _ => s.clipboard.file.downloading = true →
      ∀ request, s.abandoned[k]? = some request →
        s.clipboard.file.entryOf request.streamId = none

/-- **The answers that keep the download going.** -/
def Sustained (s : Awaiting) : AwaitingAction → Prop
  | .call _ => True
  | .answer k ok data surroundings => s.clipboard.file.downloading = true →
      ∀ request, s.clipboard.file.requests[k]? = some request →
        ∀ entry, s.clipboard.file.downloads[s.clipboard.file.current]? = some entry →
          s.clipboard.file.Sustains entry ⟨request.streamId, ok, data⟩ surroundings
  | .lateAnswer _ _ _ _ => True

namespace CliprdrFile

variable {s : CliprdrFile} {response : ContentsResponse} {surroundings : Surroundings}

/-- An identifier that an entry has is found. -/
theorem entryOf_ne_none {i : ℕ} {entry : DownloadEntry} (hentry : s.downloads[i]? = some entry) :
    s.entryOf entry.streamId ≠ none := by
  intro hnone
  rw [entryOf, Option.bind_eq_none_iff] at hnone
  cases hfound : s.downloads.findIdx? fun other ↦ other.streamId == entry.streamId with
  | none =>
    have hother := List.findIdx?_eq_none_iff.1 hfound entry (List.mem_of_getElem? hentry)
    rw [beq_self_eq_true] at hother
    cases hother
  | some j =>
    obtain ⟨hlt, -⟩ := List.findIdx?_eq_some_iff_getElem.1 hfound
    have hnone := hnone j hfound
    rw [List.getElem?_eq_getElem hlt] at hnone
    cases hnone

/-- **An answer that is for the entry under the cursor, if for any,** leaves an orderly queue. -/
theorem Orderly.fileContentsResponse (h : s.Orderly)
    (hmatched : s.downloading = true → ∀ i entry, s.entryOf response.streamId = some (i, entry) →
      i = s.current) : (s.fileContentsResponse response surroundings).Orderly := by
  rcases fileContentsResponse_eq s response surroundings with ⟨heq, -⟩ |
    ⟨hdownloading, i, entry, hentryOf, hentry, heq⟩
  · rw [heq]
    exact h
  · obtain rfl := hmatched hdownloading i entry hentryOf
    rw [heq]
    exact h.receive hdownloading hentry response surroundings

/-- **An answer to the request in flight.** -/
theorem inFlight_fileContentsResponse_iff (h : s.Orderly) (hinFlight : s.InFlight) {k : ℕ}
    {request : ContentsRequest} (hrequest : s.requests[k]? = some request)
    (hresponse : response.streamId = request.streamId)
    (hmatched : s.downloading = true → ∀ i entry, s.entryOf request.streamId = some (i, entry) →
      i = s.current) :
    (({ s with requests := s.requests.eraseIdx k } : CliprdrFile).fileContentsResponse response
        surroundings).InFlight ↔
      (s.downloading = true → ∀ entry, s.downloads[s.current]? = some entry →
        s.Sustains entry response surroundings) := by
  rcases fileContentsResponse_eq { s with requests := s.requests.eraseIdx k } response surroundings
    with ⟨heq, hnone⟩ | ⟨hdownloading, i, entry, hentryOf, hentry, heq⟩
  · -- there is no download, since there would be an entry
    have hidle : s.downloading = false := by
      rw [← Bool.not_eq_true]
      intro hdownloading
      obtain ⟨entry, request', hentry, hrequests, -, hid⟩ := hinFlight hdownloading
      rw [hrequests, List.getElem?_singleton, Option.ite_none_right_eq_some] at hrequest
      obtain rfl := Option.some.inj hrequest.2
      rw [hresponse, hid] at hnone
      obtain ⟨⟨i, entry'⟩, hfound⟩ := Option.ne_none_iff_exists'.1 (entryOf_ne_none hentry)
      exact hnone ⟨hdownloading, i, entry', hfound⟩
    rw [heq]
    exact iff_of_true (inFlight_of_not_downloading hidle)
      fun hdownloading ↦ by cases hidle.symm.trans hdownloading
  · rw [hresponse] at hentryOf
    obtain rfl : i = s.current := hmatched hdownloading i entry hentryOf
    obtain ⟨-, request', -, hrequests, -⟩ := hinFlight hdownloading
    have herased : s.requests.eraseIdx k = [] := by
      rw [hrequests] at hrequest ⊢
      rw [List.getElem?_singleton, Option.ite_none_right_eq_some] at hrequest
      rw [hrequest.1]
      rfl
    have horderly : ({ s with requests := s.requests.eraseIdx k } : CliprdrFile).Orderly :=
      h.of_eq rfl rfl rfl id
    rw [heq, inFlight_receive_iff horderly hdownloading hentry herased]
    refine ⟨fun hsustains _ entry' hentry' ↦ ?_,
      fun hsustains ↦ hsustains hdownloading entry hentry⟩
    obtain rfl := Option.some.inj (hentry.symm.trans hentry')
    exact hsustains

end CliprdrFile

/-- **What a step does.** -/
inductive AwaitingStep (parseFileList : List UInt8 → List FileDescriptor) (s t : Awaiting) :
    AwaitingAction → Prop
  | givesUp (call : ClipboardCall) (hgivesUp : s.clipboard.givesUp call = true)
      (ht : t.clipboard = (s.clipboard.setRequests []).call parseFileList call) :
    AwaitingStep parseFileList s t (.call call)
  | call (call : ClipboardCall) (hgivesUp : s.clipboard.givesUp call = false)
      (ht : t.clipboard = s.clipboard.call parseFileList call) :
    AwaitingStep parseFileList s t (.call call)
  | answer (k : ℕ) (ok : Bool) (data : Option (List UInt8)) (surroundings : Surroundings)
      (request : ContentsRequest) (hrequest : s.clipboard.file.requests[k]? = some request)
      (ht : t.clipboard = (s.clipboard.setRequests (s.clipboard.file.requests.eraseIdx k)).contents
        ⟨request.streamId, ok, data⟩ surroundings) :
    AwaitingStep parseFileList s t (.answer k ok data surroundings)
  | lateAnswer (k : ℕ) (ok : Bool) (data : Option (List UInt8)) (surroundings : Surroundings)
      (request : ContentsRequest) (hrequest : s.abandoned[k]? = some request)
      (ht : t.clipboard = s.clipboard.contents ⟨request.streamId, ok, data⟩ surroundings) :
    AwaitingStep parseFileList s t (.lateAnswer k ok data surroundings)

theorem awaitingStep_of_step {s t : Awaiting} {action : AwaitingAction}
    (hstep : (awaitingSystem parseFileList).step s action = some t) :
    AwaitingStep parseFileList s t action := by
  rw [awaitingSystem] at hstep
  cases action with
  | call call =>
    dsimp only at hstep
    split at hstep
    case isTrue hgivesUp =>
      obtain rfl := Option.some.inj hstep
      exact .givesUp call hgivesUp rfl
    case isFalse hgivesUp =>
      obtain rfl := Option.some.inj hstep
      exact .call call (Bool.not_eq_true _ ▸ hgivesUp) rfl
  | answer k ok data surroundings =>
    dsimp only at hstep
    split at hstep
    · cases hstep
    · next request hrequest =>
      obtain rfl := Option.some.inj hstep
      exact .answer k ok data surroundings request hrequest rfl
  | lateAnswer k ok data surroundings =>
    dsimp only at hstep
    split at hstep
    · cases hstep
    · next request hrequest =>
      obtain rfl := Option.some.inj hstep
      exact .lateAnswer k ok data surroundings request hrequest rfl

/-- **Orderly queues** stay orderly while answers find the entries they are for. -/
theorem orderly_step {s t : Awaiting} {action : AwaitingAction} (h : s.clipboard.file.Orderly)
    (hmatched : MatchedStep s action)
    (hstep : (awaitingSystem parseFileList).step s action = some t) :
    t.clipboard.file.Orderly := by
  cases awaitingStep_of_step hstep with
  | givesUp call hgivesUp ht =>
    rw [ht]
    exact (Clipboard.call_spec_of_givesUp hgivesUp).1
  | call call hgivesUp ht =>
    rw [ht]
    exact (Clipboard.call_spec_of_not_givesUp hgivesUp h).1
  | answer k ok data surroundings request hrequest ht =>
    have horderly : (s.clipboard.setRequests
        (s.clipboard.file.requests.eraseIdx k)).file.Orderly := h.of_eq rfl rfl rfl id
    rw [ht]
    exact horderly.fileContentsResponse fun hdownloading ↦ hmatched hdownloading request hrequest
  | lateAnswer k ok data surroundings request hrequest ht =>
    rw [ht]
    refine h.fileContentsResponse fun hdownloading i entry hentryOf ↦ ?_
    cases (hmatched hdownloading request hrequest).symm.trans hentryOf

/-- **One step** keeps a request in flight exactly if it is sustained. -/
theorem inFlight_step_iff {s t : Awaiting} {action : AwaitingAction}
    (h : s.clipboard.file.Orderly) (hinFlight : s.clipboard.file.InFlight)
    (hmatched : MatchedStep s action)
    (hstep : (awaitingSystem parseFileList).step s action = some t) :
    t.clipboard.file.InFlight ↔ Sustained s action := by
  cases awaitingStep_of_step hstep with
  | givesUp call hgivesUp ht =>
    rw [ht]
    exact iff_of_true (Clipboard.call_spec_of_givesUp hgivesUp).2 trivial
  | call call hgivesUp ht =>
    rw [ht]
    exact iff_of_true ((Clipboard.call_spec_of_not_givesUp hgivesUp h).2 hinFlight) trivial
  | answer k ok data surroundings request hrequest ht =>
    rw [ht]
    refine (inFlight_fileContentsResponse_iff h hinFlight hrequest rfl
      fun hdownloading ↦ hmatched hdownloading request hrequest).trans
      (forall_congr' fun _ ↦ ⟨fun hsustains other hother ↦ ?_, fun hsustains ↦ ?_⟩)
    · obtain rfl := Option.some.inj (hrequest.symm.trans hother)
      exact hsustains
    · exact hsustains request hrequest
  | lateAnswer k ok data surroundings request hrequest ht =>
    rw [ht]
    refine iff_of_true ?_ trivial
    rcases fileContentsResponse_eq s.clipboard.file ⟨request.streamId, ok, data⟩ surroundings with
      ⟨heq, -⟩ | ⟨hdownloading, i, entry, hentryOf, -⟩
    · rw [Clipboard.contents, heq]
      exact hinFlight
    · cases (hmatched hdownloading request hrequest).symm.trans hentryOf

/-- **The exact condition.** While answers find the entries they are for, a download that is going
on has its one request in flight in all states of a run if all answers in it keep the download
going, and only then. -/
theorem inFlight_iff (parseFileList : List UInt8 → List FileDescriptor)
    (actions : List AwaitingAction) :
    ((awaitingSystem parseFileList).StepsMeet
        (fun s action ↦ MatchedStep s action ∧ Sustained s action) {} actions →
      ∀ pre post s, actions = pre ++ post → (awaitingSystem parseFileList).run {} pre = some s →
        s.clipboard.file.InFlight) ∧
      ((awaitingSystem parseFileList).StepsMeet MatchedStep {} actions →
        (∀ pre post s, actions = pre ++ post → (awaitingSystem parseFileList).run {} pre = some s →
          s.clipboard.file.InFlight) →
        (awaitingSystem parseFileList).StepsMeet Sustained {} actions) := by
  have hiff (hmatched : (awaitingSystem parseFileList).StepsMeet MatchedStep {} actions) :=
    StepSystem.stepsMeet_iff_forall_prefix_of_stepsMeet (C := Sustained)
      (I := fun s : Awaiting ↦ s.clipboard.file.Orderly)
      (P := fun s : Awaiting ↦ s.clipboard.file.InFlight)
      (fun s action t h hmatched hstep ↦ orderly_step h hmatched hstep)
      (fun s action _ _ hstuck ↦ by
        cases action with
        | call call =>
          rw [awaitingSystem] at hstuck
          dsimp only at hstuck
          split at hstuck <;> cases hstuck
        | answer k ok data surroundings =>
          intro hdownloading request hrequest
          rw [awaitingSystem] at hstuck
          simp only [hrequest] at hstuck
          cases hstuck
        | lateAnswer => trivial)
      (fun s action t h hinFlight hmatched hstep ↦ inFlight_step_iff h hinFlight hmatched hstep)
      (orderly_of_downloads_eq_nil rfl rfl) (inFlight_of_not_downloading rfl) hmatched
  refine ⟨fun h ↦ ?_, fun hmatched ↦ (hiff hmatched).2⟩
  rw [StepSystem.stepsMeet_and] at h
  exact (hiff h.1).1 h.2

/-- A file is announced and downloaded, and the server sends its size, of one byte. The channel
takes the request for the size, and the request for the piece or not. -/
def sizeReceived (accepts : Bool) : List AwaitingAction :=
  [.call .channelConnected,
    .call (.formatList [⟨49270, some "FileGroupDescriptorW"⟩] true true),
    .call (.dataResponse ⟨true, some [1]⟩),
    .call (.requestDownload [0x74] fun _ ↦ true),
    .answer 0 true (some [1, 0, 0, 0, 0, 0, 0, 0]) ⟨fun _ ↦ accepts, true, 0⟩]

/-- **The queue waits for an answer that will not come**, with the server's clipboard locked: the
request for the piece is refused, or the piece comes without a byte. -/
theorem sizeReceived_stuck :
    (∃ s, (awaitingSystem fun _ ↦ [⟨0, none⟩]).run {} (sizeReceived false) = some s ∧
      s.clipboard.file.downloading = true ∧ s.clipboard.file.requests = [] ∧ s.abandoned = [] ∧
      s.clipboard.file.ourLockActive = true ∧ ¬s.clipboard.file.InFlight) ∧
    (∃ s, (awaitingSystem fun _ ↦ [⟨0, none⟩]).run {} (sizeReceived true ++
        [.answer 0 true (some []) ⟨fun _ ↦ true, true, 0⟩]) = some s ∧
      s.clipboard.file.downloading = true ∧ s.clipboard.file.requests = [] ∧ s.abandoned = [] ∧
      s.clipboard.file.ourLockActive = true ∧ ¬s.clipboard.file.InFlight) := by
  refine ⟨⟨_, rfl, by decide, by decide, by decide, by decide, fun h ↦ ?_⟩,
    ⟨_, rfl, by decide, by decide, by decide, by decide, fun h ↦ ?_⟩⟩
  · obtain ⟨entry, request, -, hrequests, -⟩ := h (by decide)
    cases hrequests
  · obtain ⟨entry, request, -, hrequests, -⟩ := h (by decide)
    cases hrequests

end RdpMcp
