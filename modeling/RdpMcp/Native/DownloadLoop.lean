import RdpMcp.Native.StreamIds

/-!
# What the loop of the download queue asks for

`start_next_download` passes over the entries that need no answer: those that are complete, those of
directories, and those whose size cannot be asked for. It stops at the first other entry
(`StopsAt`), with exactly one request: for the size if it is not known yet, and for a piece if it
is. `startNext_looped` says so, with all that later modules need of the state behind.

A request for a piece may be refused by the channel; then the loop stops all the same.
-/

open ListUpdate

namespace RdpMcp

/-! ### Requests for pieces -/

/-- The piece that is asked for. -/
def FileEffect.piece : FileEffect → Option ContentsRequest
  | .request sent _ => if sent.kind = .range then some sent else none
  | _ => none

/-- The pieces that have been asked for, whether the channel has taken the requests or not. -/
def pieceRequests (history : List FileEffect) : List ContentsRequest :=
  history.filterMap FileEffect.piece

theorem pieceRequests_concat (history : List FileEffect) (effect : FileEffect) :
    pieceRequests (history ++ [effect]) = pieceRequests history ++ effect.piece.toList := by
  rw [pieceRequests, List.filterMap_append]
  cases h : effect.piece with
  | none => simp [pieceRequests, h]
  | some request => simp [pieceRequests, h]

theorem pieceRequests_concat_of_none {history : List FileEffect} {effect : FileEffect}
    (h : effect.piece = none) : pieceRequests (history ++ [effect]) = pieceRequests history := by
  rw [pieceRequests_concat, h]
  exact List.append_nil _

namespace CliprdrFile

variable {s t u : CliprdrFile}

/-! ### Every entry -/

/-- Every entry, with its index, is as `Q` says. -/
def EachEntry (Q : ℕ → DownloadEntry → Prop) (s : CliprdrFile) : Prop :=
  ∀ (i : ℕ) (entry : DownloadEntry), s.downloads[i]? = some entry → Q i entry

/-- What stays when an entry gets a new stream identifier, and when it is completed. -/
structure Lasting (Q : ℕ → DownloadEntry → Prop) : Prop where
  streamId : ∀ i entry streamId, Q i entry → Q i { entry with streamId }
  complete : ∀ i entry, Q i entry → Q i { entry with complete := true }

section EachEntry

variable {Q : ℕ → DownloadEntry → Prop}

theorem EachEntry.of_downloads_eq (h : s.EachEntry Q) (heq : t.downloads = s.downloads) :
    t.EachEntry Q := by
  rw [EachEntry, heq]
  exact h

theorem EachEntry.of_nil (heq : t.downloads = []) : t.EachEntry Q := by
  rw [EachEntry, heq]
  exact nofun

theorem EachEntry.set (h : s.EachEntry Q) {i : ℕ} {entry : DownloadEntry} (hentry : Q i entry)
    (heq : t.downloads = s.downloads.set i entry) : t.EachEntry Q := by
  intro j other hother
  rw [heq, List.getElem?_set] at hother
  split at hother
  case isTrue hij =>
    subst hij
    split at hother
    · obtain rfl := Option.some.inj hother
      exact hentry
    · cases hother
  case isFalse => exact h j other hother

theorem EachEntry.send (h : s.EachEntry Q) (hlasting : Lasting Q) (fileIndex : ℕ)
    (kind : ContentsKind) (offset : UInt64) (cbRequested : UInt32) (accepted : Bool) :
    (s.sendFileContentsRequest fileIndex kind offset cbRequested accepted).2.EachEntry Q := by
  have htracked : (s.track fileIndex).EachEntry Q := fun i entry' hentry' ↦ by
    obtain ⟨entry, hentry, heq, -⟩ := getElem?_track hentry'
    rw [heq]
    exact hlasting.streamId _ _ _ (h i entry hentry)
  obtain hsend | ⟨request, -, hsend⟩ :=
    sendFileContentsRequest_cases s fileIndex kind offset cbRequested accepted
  · rw [hsend]
    exact h
  · rw [hsend]
    cases accepted <;> exact htracked.of_downloads_eq rfl

theorem EachEntry.modify_complete (h : s.EachEntry Q) (hlasting : Lasting Q) (i : ℕ)
    (heq : t.downloads = s.downloads.modify i fun entry ↦ { entry with complete := true }) :
    t.EachEntry Q := by
  intro j entry' hentry'
  rw [heq, List.getElem?_modify] at hentry'
  obtain ⟨entry, hentry, rfl⟩ := Option.map_eq_some_iff.1 hentry'
  split
  · exact hlasting.complete _ _ (h j entry hentry)
  · exact h j entry hentry

theorem eachEntry_startNext (hlasting : Lasting Q) (accepts : ℕ → Bool) (n : ℕ)
    (h : s.EachEntry Q) : (startNext accepts n s).EachEntry Q := by
  refine startNext_rule (motive := fun s t ↦ s.EachEntry Q → t.EachEntry Q) (fun s h ↦ ?_)
    (fun s entry _ _ _ _ h ↦ ?_) (fun s t hnext h ↦ ?_) (fun s t entry hentry hnext h ↦ ?_)
    (fun s t entry _ hnext h ↦ ?_) n s h
  · exact h.of_downloads_eq rfl
  · exact h.send hlasting _ _ _ _ _
  · exact hnext (h.of_downloads_eq rfl)
  · -- a directory
    refine hnext (EachEntry.set h (hlasting.complete _ _ (h _ _ hentry)) ?_)
    rfl
  · -- the size cannot be asked for
    have hsent := h.send hlasting entry.fileIndex .size 0 8 (accepts entry.fileIndex)
    exact hnext (hsent.modify_complete hlasting _ rfl)

end EachEntry

/-- Every entry has the index of its place. -/
abbrev Indexed (s : CliprdrFile) : Prop :=
  s.EachEntry fun i entry ↦ entry.fileIndex = i

theorem lasting_fileIndex : Lasting fun i entry ↦ entry.fileIndex = i :=
  ⟨fun _ _ _ h ↦ h, fun _ _ h ↦ h⟩

/-! ### Where the loop stops -/

/-- The queue passes over an entry, if there is one. -/
def Passes (s : CliprdrFile) (accepts : ℕ → Bool) (i : ℕ) : Prop :=
  ∀ entry, s.downloads[i]? = some entry →
    entry.complete = true ∨ s.descriptors[i]?.any FileDescriptor.isDirectory = true ∨
      entry.sizeReceived = false ∧ accepts i = false

/-- From an index on, the first entry that the queue does not pass over. -/
structure StopsAt (s : CliprdrFile) (accepts : ℕ → Bool) (start i : ℕ) (entry : DownloadEntry) :
    Prop where
  le : start ≤ i
  passes : ∀ k, start ≤ k → k < i → s.Passes accepts k
  getElem? : s.downloads[i]? = some entry
  complete : entry.complete = false
  directory : s.descriptors[i]?.any FileDescriptor.isDirectory = false
  accepts : entry.sizeReceived = false → accepts i = true

theorem StopsAt.not_passes {accepts : ℕ → Bool} {start i : ℕ} {entry : DownloadEntry}
    (h : s.StopsAt accepts start i entry) : ¬s.Passes accepts i := by
  intro hpasses
  rcases hpasses entry h.getElem? with hcomplete | hdirectory | ⟨hsize, haccepts⟩
  · cases h.complete.symm.trans hcomplete
  · cases h.directory.symm.trans hdirectory
  · cases (h.accepts hsize).symm.trans haccepts

/-- There is only one such entry. -/
theorem StopsAt.unique {accepts : ℕ → Bool} {start i j : ℕ} {entry entry' : DownloadEntry}
    (h : s.StopsAt accepts start i entry) (h' : s.StopsAt accepts start j entry') :
    i = j ∧ entry = entry' := by
  have hij : ¬i < j := fun hlt ↦ h.not_passes (h'.passes i h.le hlt)
  have hji : ¬j < i := fun hlt ↦ h'.not_passes (h.passes j h'.le hlt)
  obtain rfl : i = j := by omega
  exact ⟨rfl, Option.some.inj (h.getElem?.symm.trans h'.getElem?)⟩

/-- The request that the loop makes for an entry. -/
def FirstRequest (i : ℕ) (entry : DownloadEntry) (request : ContentsRequest) : Prop :=
  request.listIndex = i ∧
    if entry.sizeReceived then
      request.kind = .range ∧ request.position = entry.bytesReceived.toNat ∧
        request.cbRequested = firstChunk entry
    else request.kind = .size

/-- **What the loop does**: it runs to the end, or it stops at an entry and makes a request. -/
inductive Looped (accepts : ℕ → Bool) (s t : CliprdrFile) : Prop
  | finished (hpasses : ∀ i, s.current ≤ i → s.Passes accepts i)
      (hdownloading : t.downloading = false) (hrequests : t.requests = s.requests)
      (hpieces : pieceRequests t.history = pieceRequests s.history)
  | stopped (i : ℕ) (entry : DownloadEntry) (request : ContentsRequest)
      (hstops : s.StopsAt accepts s.current i entry) (hrequest : FirstRequest i entry request)
      (hcurrent : t.current = i) (hdownloading : t.downloading = s.downloading)
      (hentry : t.downloads[i]? = some { entry with streamId := request.streamId })
      (hahead : ∀ k, i < k → t.downloads[k]? = s.downloads[k]?)
      (hrequests : t.requests = if accepts i then s.requests ++ [request] else s.requests)
      (hpieces : pieceRequests t.history =
        if entry.sizeReceived then pieceRequests s.history ++ [request]
        else pieceRequests s.history)

variable {accepts : ℕ → Bool}

/-- An entry is passed over, and the loop goes on behind it. -/
theorem Looped.of_next (h : Looped accepts u t) (hcurrent : u.current = s.current + 1)
    (hothers : ∀ k, s.current < k → u.downloads[k]? = s.downloads[k]?)
    (hdescriptors : u.descriptors = s.descriptors) (hpasses : s.Passes accepts s.current)
    (hdownloading : u.downloading = s.downloading) (hrequests : u.requests = s.requests)
    (hpieces : pieceRequests u.history = pieceRequests s.history) : Looped accepts s t := by
  have hpasses_iff (k : ℕ) (hk : s.current < k) : u.Passes accepts k ↔ s.Passes accepts k := by
    rw [Passes, Passes, hothers k hk, hdescriptors]
  cases h with
  | finished hrest hdone hrequests' hpieces' =>
    refine .finished (fun k hk ↦ ?_) hdone (hrequests'.trans hrequests) (hpieces'.trans hpieces)
    rcases Nat.eq_or_lt_of_le hk with rfl | hlt
    · exact hpasses
    · exact (hpasses_iff k hlt).1 (hrest k (by omega))
  | stopped i entry request hstops hrequest hcurrent' hdownloading' hentry hahead hrequests'
      hpieces' =>
    have hle := hstops.le
    rw [hcurrent] at hle
    refine .stopped i entry request ⟨by omega, fun k hk hlt ↦ ?_, ?_, hstops.complete, ?_,
      hstops.accepts⟩ hrequest hcurrent' (hdownloading'.trans hdownloading) hentry
      (fun k hk ↦ (hahead k hk).trans (hothers k (by omega))) ?_ ?_
    · rcases Nat.eq_or_lt_of_le hk with rfl | hlt'
      · exact hpasses
      · exact (hpasses_iff k hlt').1 (hstops.passes k (by omega) hlt)
    · rw [← hothers i (by omega)]
      exact hstops.getElem?
    · rw [← hdescriptors]
      exact hstops.directory
    · rw [hrequests', hrequests]
    · rw [hpieces', hpieces]

/-- A request for a piece or the size of a file has been handed to the channel. -/
structure Sent (s t : CliprdrFile) (i : ℕ) (entry : DownloadEntry) (request : ContentsRequest)
    (accepted : Bool) : Prop where
  current : t.current = s.current
  downloading : t.downloading = s.downloading
  cliprdr : t.cliprdr = s.cliprdr
  descriptors : t.descriptors = s.descriptors
  downloads : t.downloads = s.downloads.set i { entry with streamId := request.streamId }
  requests : t.requests = if accepted then s.requests ++ [request] else s.requests
  history : t.history = s.history ++ [.request request accepted]

theorem sent_send (hcliprdr : s.cliprdr = true) {i : ℕ} {entry : DownloadEntry}
    (hentry : s.downloads[i]? = some entry) (kind : ContentsKind) (offset : UInt64)
    (cbRequested : UInt32) (accepted : Bool) :
    (s.sendFileContentsRequest i kind offset cbRequested accepted).1 = accepted ∧
      Sent s (s.sendFileContentsRequest i kind offset cbRequested accepted).2 i entry
        (s.contentsRequest i kind offset cbRequested) accepted := by
  have hdownloads : (s.track i).downloads =
      s.downloads.set i { entry with streamId := s.nextStreamId } := by
    rw [CliprdrFile.track, List.modify_eq_set_getElem?, hentry]
    rfl
  rw [sendFileContentsRequest, hcliprdr]
  cases accepted with
  | true => exact ⟨rfl, rfl, rfl, hcliprdr.symm ▸ rfl, rfl, hdownloads, rfl, rfl⟩
  | false => exact ⟨rfl, rfl, rfl, hcliprdr.symm ▸ rfl, rfl, hdownloads, rfl, rfl⟩

theorem StopsAt.of_passes_lt {i : ℕ} {entry : DownloadEntry} (hentry : s.downloads[i]? = some entry)
    (hcomplete : entry.complete = false)
    (hdirectory : s.descriptors[i]?.any FileDescriptor.isDirectory = false)
    (haccepts : entry.sizeReceived = false → accepts i = true) : s.StopsAt accepts i i entry :=
  ⟨Nat.le_refl i, fun _ hle hlt ↦ absurd hle (Nat.not_le.2 hlt), hentry, hcomplete, hdirectory,
    haccepts⟩

/-- The loop stops at the entry under the cursor. -/
theorem Looped.of_sent {entry : DownloadEntry} {request : ContentsRequest}
    (hstops : s.StopsAt accepts s.current s.current entry)
    (hsent : Sent s t s.current entry request (accepts s.current))
    (hrequest : FirstRequest s.current entry request) : Looped accepts s t := by
  obtain ⟨hlt, -⟩ := List.getElem?_eq_some_iff.1 hstops.getElem?
  refine .stopped s.current entry request hstops hrequest hsent.current hsent.downloading ?_
    (fun k hk ↦ ?_) hsent.requests ?_
  · rw [hsent.downloads, List.getElem?_set_self hlt]
  · rw [hsent.downloads, List.getElem?_set_ne (by omega)]
  · rw [hsent.history, pieceRequests_concat]
    cases hsize : entry.sizeReceived with
    | false =>
      rw [FirstRequest, hsize] at hrequest
      have hkind : request.kind = .size := hrequest.2
      rw [FileEffect.piece, hkind]
      exact List.append_nil _
    | true =>
      rw [FirstRequest, hsize] at hrequest
      have hkind : request.kind = .range := hrequest.2.1
      rw [FileEffect.piece, hkind]
      rfl

/-- The loop runs to the end. -/
theorem looped_finish (hbehind : s.downloads.length ≤ s.current) : Looped accepts s s.finish := by
  refine .finished (fun i hi entry hentry ↦ ?_) rfl rfl (pieceRequests_concat_of_none rfl)
  obtain ⟨hlt, -⟩ := List.getElem?_eq_some_iff.1 hentry
  omega

/-- **The loop**, from a state in which the channel is there. -/
theorem looped_startNext (accepts : ℕ → Bool) (n : ℕ) (hcliprdr : s.cliprdr = true)
    (hindexed : s.Indexed) (hn : s.downloads.length ≤ s.current + n) :
    Looped accepts s (startNext accepts n s) := by
  induction n generalizing s with
  | zero => exact looped_finish hn
  | succ n ih =>
    rw [startNext]
    cases hentry : s.downloads[s.current]? with
    | none => exact looped_finish (List.getElem?_eq_none_iff.1 hentry)
    | some entry =>
      have hindex : entry.fileIndex = s.current := hindexed _ _ hentry
      have hpasses (h : entry.complete = true ∨
          s.descriptors[s.current]?.any FileDescriptor.isDirectory = true ∨
          entry.sizeReceived = false ∧ accepts s.current = false) :
          s.Passes accepts s.current := fun entry' hentry' ↦ by
        obtain rfl := Option.some.inj (hentry.symm.trans hentry')
        exact h
      dsimp only
      split
      case isTrue hcomplete =>
        have hnext : Looped accepts s.advance (startNext accepts n s.advance) :=
          ih hcliprdr (hindexed.of_downloads_eq rfl)
            (show s.downloads.length ≤ s.current + 1 + n by omega)
        exact hnext.of_next rfl (fun _ _ ↦ rfl) rfl (hpasses (.inl hcomplete)) rfl rfl rfl
      case isFalse hcomplete =>
        rw [Bool.not_eq_true] at hcomplete
        split
        case isTrue hdirectory =>
          have hset : (s.setEntry s.current { entry with complete := true }).Indexed := by
            refine EachEntry.set hindexed ?_ rfl
            exact hindex
          refine Looped.of_next (ih hcliprdr (hset.of_downloads_eq rfl) ?_) rfl (fun k hk ↦ ?_) rfl
            (hpasses (.inr (.inl hdirectory))) rfl rfl (pieceRequests_concat_of_none rfl)
          · show (s.downloads.set s.current { entry with complete := true }).length ≤
              s.current + 1 + n
            rw [List.length_set]
            omega
          · exact List.getElem?_set_ne (by omega)
        case isFalse hdirectory =>
          rw [Bool.not_eq_true] at hdirectory
          rw [hindex]
          split
          case isTrue hsize =>
            rw [Bool.not_eq_true'] at hsize
            obtain ⟨hresult, hsent⟩ := sent_send hcliprdr hentry .size 0 8 (accepts s.current)
            split
            case isTrue haccepted =>
              refine Looped.of_sent (.of_passes_lt hentry hcomplete hdirectory fun _ ↦ ?_) hsent ?_
              · exact hresult.symm.trans haccepted
              · rw [FirstRequest, hsize]
                exact ⟨rfl, rfl⟩
            case isFalse hrefused =>
              -- the size cannot be asked for
              rw [Bool.not_eq_true] at hrefused
              have haccepts := hresult.symm.trans hrefused
              have hindexed' := EachEntry.send hindexed lasting_fileIndex s.current .size 0 8
                (accepts s.current)
              generalize (s.sendFileContentsRequest s.current .size 0 8 (accepts s.current)).2 = u
                at hsent hindexed'
              refine Looped.of_next (ih (hsent.cliprdr.trans hcliprdr)
                (hindexed'.modify_complete lasting_fileIndex _ rfl) ?_) ?_ (fun k hk ↦ ?_)
                hsent.descriptors (hpasses (.inr (.inr ⟨hsize, haccepts⟩))) hsent.downloading ?_ ?_
              · show (u.downloads.modify u.current _).length ≤ u.current + 1 + n
                rw [List.length_modify, hsent.downloads, List.length_set, hsent.current]
                omega
              · exact congrArg (· + 1) hsent.current
              · refine (List.getElem?_modify_ne _ _ ?_).trans ?_
                · rw [hsent.current]
                  omega
                · rw [hsent.downloads, List.getElem?_set_ne (by omega)]
              · show u.requests = s.requests
                rw [hsent.requests, haccepts]
                rfl
              · show pieceRequests (u.history ++ [_]) = pieceRequests s.history
                rw [pieceRequests_concat_of_none rfl, hsent.history,
                  pieceRequests_concat_of_none rfl]
          case isFalse hsize =>
            obtain ⟨-, hsent⟩ :=
              sent_send hcliprdr hentry .range entry.bytesReceived (firstChunk entry)
                (accepts s.current)
            have hsize' : entry.sizeReceived = true := by simpa using hsize
            refine Looped.of_sent (.of_passes_lt hentry hcomplete hdirectory fun hfalse ↦ ?_) hsent
              ?_
            · cases hsize'.symm.trans hfalse
            · rw [FirstRequest, hsize']
              exact ⟨rfl, rfl, position_contentsRequest, rfl⟩

theorem looped_startNextDownload (accepts : ℕ → Bool) (hcliprdr : s.cliprdr = true)
    (hindexed : s.Indexed) : Looped accepts s (s.startNextDownload accepts) :=
  looped_startNext accepts _ hcliprdr hindexed (by omega)

/-! ### What an answer does to its entry -/

/-- One entry is changed, and the cursor is moved. -/
structure Changed (s u : CliprdrFile) (current i : ℕ) (entry : DownloadEntry) : Prop where
  current : u.current = current
  downloads : u.downloads = s.downloads.set i entry
  cliprdr : u.cliprdr = s.cliprdr
  descriptors : u.descriptors = s.descriptors
  downloading : u.downloading = s.downloading
  requests : u.requests = s.requests
  pieces : pieceRequests u.history = pieceRequests s.history

/-- An entry behind a piece, or behind what of it is written. -/
def received (entry : DownloadEntry) (data : List UInt8) (writes : ℕ) : DownloadEntry :=
  { entry with bytesReceived := entry.bytesReceived + UInt64.ofNat (data.take writes).length }

/-- **What an answer does to its entry**: it ends it, it makes its size known, it brings a piece
that is not the last, or nothing. -/
inductive Received (s t : CliprdrFile) (i : ℕ) (entry : DownloadEntry)
    (response : ContentsResponse) (surroundings : Surroundings) : Prop
  | ended (u : CliprdrFile) (entry' : DownloadEntry) (hends : Ends entry response surroundings)
      (hcomplete : entry'.complete = true) (hindex : entry'.fileIndex = entry.fileIndex)
      (hsize : entry'.sizeReceived = false →
        entry.sizeReceived = false ∧ entry'.bytesReceived = entry.bytesReceived)
      (hchanged : Changed s u (s.current + 1) i entry')
      (ht : t = u.startNextDownload surroundings.accepts)
  | opened (u : CliprdrFile) (hends : ¬Ends entry response surroundings)
      (hsize : entry.sizeReceived = false) (hpos : response.size ≠ 0)
      (hchanged : Changed s u s.current i
        { entry with totalSize := response.size, sizeReceived := true, fp := true })
      (ht : t = u.startNextDownload surroundings.accepts)
  | ignored (hends : ¬Ends entry response surroundings) (hsize : entry.sizeReceived = true)
      (hnothing : response.data.getD [] = [] ∨ entry.fp = false) (ht : t = s)
  | continued (u : CliprdrFile) (data : List UInt8) (hends : ¬Ends entry response surroundings)
      (hsize : entry.sizeReceived = true) (hdata : response.data = some data) (hne : data ≠ [])
      (hfp : entry.fp = true)
      (hlt : (received entry data surroundings.writes).bytesReceived < entry.totalSize)
      (hchanged : Changed s u s.current i (received entry data surroundings.writes))
      (ht : t = (u.sendFileContentsRequest entry.fileIndex .range
        (received entry data surroundings.writes).bytesReceived
        (nextChunk (received entry data surroundings.writes))
        (surroundings.accepts entry.fileIndex)).2)

/-- An entry is ended, whatever is reported. -/
theorem Received.of_finishEntry {i : ℕ} {entry entry' : DownloadEntry}
    {response : ContentsResponse} {surroundings : Surroundings}
    {report : CliprdrFile → CliprdrFile} (hends : Ends entry response surroundings)
    (hindex : entry'.fileIndex = entry.fileIndex)
    (hsize : entry'.sizeReceived = false →
      entry.sizeReceived = false ∧ entry'.bytesReceived = entry.bytesReceived)
    (hreport : ∀ u, ∃ effect, report u = u.emit effect ∧ effect.piece = none)
    (h : Changed s (t.setEntry i { entry' with complete := true }) s.current i
      { entry' with complete := true }) :
    Received s (t.finishEntry i entry' report surroundings.accepts) i entry response
      surroundings := by
  obtain ⟨effect, heffect, hnone⟩ := hreport (t.setEntry i { entry' with complete := true })
  refine .ended _ { entry' with complete := true } hends rfl hindex hsize
    ⟨?_, ?_, ?_, ?_, ?_, ?_, ?_⟩ rfl
  all_goals rw [heffect]
  · exact congrArg (· + 1) h.current
  · exact h.downloads
  · exact h.cliprdr
  · exact h.descriptors
  · exact h.downloading
  · exact h.requests
  · exact (pieceRequests_concat_of_none hnone).trans h.pieces

theorem received_receiveSize {i : ℕ} {entry : DownloadEntry} {response : ContentsResponse}
    (surroundings : Surroundings) (hok : response.ok = true) (hsize : entry.sizeReceived = false) :
    Received s (s.receiveSize i entry response.size surroundings) i entry response
      surroundings := by
  rw [receiveSize]
  split
  case isTrue hzero =>
    -- an empty file
    refine .of_finishEntry (.inr (.inl ⟨hsize, .inl hzero⟩)) rfl
      (fun hfalse ↦ absurd hfalse.symm Bool.false_ne_true) (fun u ↦ ⟨_, rfl, rfl⟩) ?_
    cases surroundings.opens <;> exact ⟨rfl, rfl, rfl, rfl, rfl, rfl, rfl⟩
  case isFalse hpos =>
    split
    case isTrue hopens =>
      refine .opened ((s.writeFile entry.tempPath []).setEntry i _) ?_ hsize hpos
        ⟨rfl, rfl, rfl, rfl, rfl, rfl, rfl⟩ rfl
      rintro (hfail | ⟨-, hzero | hfail⟩ | ⟨htrue, -⟩)
      · cases hok.symm.trans hfail
      · exact hpos hzero
      · cases hopens.symm.trans hfail
      · cases hsize.symm.trans htrue
    case isFalse hopens =>
      rw [Bool.not_eq_true] at hopens
      exact .of_finishEntry (.inr (.inl ⟨hsize, .inr hopens⟩)) rfl
        (fun hfalse ↦ absurd hfalse.symm Bool.false_ne_true) (fun u ↦ ⟨_, rfl, rfl⟩)
        ⟨rfl, rfl, rfl, rfl, rfl, rfl, rfl⟩

theorem received_receiveRange {i : ℕ} {entry : DownloadEntry} {response : ContentsResponse}
    {data : List UInt8} (surroundings : Surroundings) (hok : response.ok = true)
    (hsize : entry.sizeReceived = true) (hfp : entry.fp = true) (hdata : response.data = some data)
    (hne : data ≠ []) :
    Received s (s.receiveRange i entry data surroundings) i entry response surroundings := by
  rw [receiveRange]
  dsimp only
  split
  case isTrue hlast =>
    refine .of_finishEntry (.inr (.inr ⟨hsize, hfp, data, hdata, hne, hlast⟩)) rfl (fun hfalse ↦ ?_)
      (fun u ↦ ⟨_, rfl, rfl⟩) ⟨rfl, rfl, rfl, rfl, rfl, rfl, pieceRequests_concat_of_none rfl⟩
    cases hsize.symm.trans hfalse
  case isFalse hmore =>
    refine .continued (((s.writeFile entry.tempPath _).emit (.progress _ _ _ _)).setEntry i _) data
      ?_ hsize hdata hne hfp (UInt64.not_le.1 hmore)
      ⟨rfl, rfl, rfl, rfl, rfl, rfl, pieceRequests_concat_of_none rfl⟩ rfl
    rintro (hfail | ⟨hfalse, -⟩ | ⟨-, -, data', hdata', -, hle⟩)
    · cases hok.symm.trans hfail
    · cases hsize.symm.trans hfalse
    · obtain rfl := Option.some.inj (hdata.symm.trans hdata')
      exact hmore hle

theorem received_receive {i : ℕ} {entry : DownloadEntry} (response : ContentsResponse)
    (surroundings : Surroundings) :
    Received s (s.receive i entry response surroundings) i entry response surroundings := by
  rw [receive]
  cases hok : response.ok with
  | false =>
    exact .of_finishEntry (.inl hok) rfl (fun hsize ↦ ⟨hsize, rfl⟩) (fun u ↦ ⟨_, rfl, rfl⟩)
      ⟨rfl, rfl, rfl, rfl, rfl, rfl, rfl⟩
  | true =>
    rw [if_neg (by decide)]
    cases hsize : entry.sizeReceived with
    | false => exact received_receiveSize surroundings hok hsize
    | true =>
      rw [if_neg (by decide)]
      have hignored (hnothing : response.data.getD [] = [] ∨ entry.fp = false) :
          Received s s i entry response surroundings := by
        refine .ignored ?_ hsize hnothing rfl
        rintro (hfail | ⟨hfalse, -⟩ | ⟨-, hfp, data, hdata, hne, -⟩)
        · cases hok.symm.trans hfail
        · cases hsize.symm.trans hfalse
        · rw [hdata, hfp] at hnothing
          exact hnothing.elim hne fun hfalse ↦ absurd hfalse.symm Bool.false_ne_true
      split
      · next hdata => exact hignored (.inl (by rw [hdata]; rfl))
      · next hdata => exact hignored (.inl (by rw [hdata]; rfl))
      · next data hne hdata =>
        split
        · next hfp => exact received_receiveRange surroundings hok hsize hfp hdata hne
        · next hfp => exact hignored (.inr (Bool.not_eq_true _ ▸ hfp))

end CliprdrFile

end RdpMcp
