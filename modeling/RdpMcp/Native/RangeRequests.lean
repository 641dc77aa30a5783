import RdpMcp.Native.DownloadLoop

/-!
# The sizes of the pieces that are asked for

A piece is asked for in two places. The handler of answers asks for the next one: it clamps what is
left of the file to 256 KiB, and then takes 32 bits of it. The loop asks for the first one, **in the
other order**: 32 bits of what is left, and then the clamp. The two agree unless at least `2 ^ 32`
bytes are left and the low half of their number is less than 256 KiB; of a file of `2 ^ 32` bytes
the loop asks for none.

`wellSized_iff` is the exact condition. Between two calls every entry has less than it should, if
its size is known and it is not complete (`Sized`), so that there is always something to ask for.
-/

namespace RdpMcp

/-- How much of the file of an entry is left. -/
def DownloadEntry.remaining (entry : DownloadEntry) : ℕ :=
  entry.totalSize.toNat - entry.bytesReceived.toNat

namespace CliprdrFile

variable {s t u : CliprdrFile}

/-! ### Well-sized requests -/

/-- The request is for what comes next in the file of its entry: 256 KiB, or what is left. -/
def WellSized (s : CliprdrFile) (request : ContentsRequest) : Prop :=
  ∃ entry, s.downloads[request.listIndex]? = some entry ∧
    request.position = entry.bytesReceived.toNat ∧
    request.cbRequested.toNat = min entry.remaining (256 * 1024) ∧ 1 ≤ request.cbRequested.toNat

/-- The pieces that are asked for on the way from one state to another. -/
def issued (s t : CliprdrFile) : List ContentsRequest :=
  (pieceRequests t.history).drop (pieceRequests s.history).length

/-- What is left shrinks to less than a piece when 32 bits of it are taken. -/
def Narrowed (entry : DownloadEntry) : Prop :=
  2 ^ 32 ≤ entry.remaining ∧ entry.remaining % 2 ^ 32 < 256 * 1024

/-- From an index on, the queue comes to a file of which too little is asked for. -/
def ComesToNarrowed (s : CliprdrFile) (accepts : ℕ → Bool) (start : ℕ) : Prop :=
  ∃ i entry, s.StopsAt accepts start i entry ∧ entry.sizeReceived = true ∧ Narrowed entry

/-- After an answer for an entry, too little is asked for: it ends the entry and the queue goes on
to such a file, or it brings the size and the queue goes on from the cursor to such a file, as a
rule to the one of that size. -/
def Narrows (s : CliprdrFile) (i : ℕ) (entry : DownloadEntry) (response : ContentsResponse)
    (surroundings : Surroundings) : Prop :=
  Ends entry response surroundings ∧
      (s.setEntry i { entry with complete := true }).ComesToNarrowed surroundings.accepts
        (s.current + 1) ∨
    ¬Ends entry response surroundings ∧ entry.sizeReceived = false ∧
      (s.setEntry i { entry with
        totalSize := response.size
        sizeReceived := true
        fp := true }).ComesToNarrowed surroundings.accepts s.current

/-! ### The two clamps -/

theorem toNat_remaining {entry : DownloadEntry}
    (h : entry.bytesReceived.toNat ≤ entry.totalSize.toNat) :
    (entry.totalSize - entry.bytesReceived).toNat = entry.remaining :=
  UInt64.toNat_sub_of_le _ _ (UInt64.le_iff_toNat_le.2 h)

theorem toNat_firstChunk {entry : DownloadEntry}
    (h : entry.bytesReceived.toNat ≤ entry.totalSize.toNat) :
    (firstChunk entry).toNat = min (entry.remaining % 2 ^ 32) (256 * 1024) := by
  have hchunk : (entry.totalSize - entry.bytesReceived).toUInt32.toNat =
      entry.remaining % 2 ^ 32 := by
    rw [UInt64.toNat_toUInt32, toNat_remaining h]
  rw [firstChunk]
  split
  case isTrue hgt =>
    rw [gt_iff_lt, UInt32.lt_iff_toNat_lt, hchunk] at hgt
    exact (Nat.min_eq_right (Nat.le_of_lt hgt)).symm
  case isFalse hle =>
    rw [gt_iff_lt, UInt32.lt_iff_toNat_lt, hchunk, Nat.not_lt] at hle
    rw [hchunk]
    exact (Nat.min_eq_left hle).symm

theorem toNat_nextChunk {entry : DownloadEntry}
    (h : entry.bytesReceived.toNat ≤ entry.totalSize.toNat) :
    (nextChunk entry).toNat = min entry.remaining (256 * 1024) := by
  rw [nextChunk]
  split
  case isTrue hgt =>
    rw [gt_iff_lt, UInt64.lt_iff_toNat_lt, toNat_remaining h] at hgt
    exact (Nat.min_eq_right (Nat.le_of_lt hgt)).symm
  case isFalse hle =>
    rw [gt_iff_lt, UInt64.lt_iff_toNat_lt, toNat_remaining h, Nat.not_lt] at hle
    have hsmall : entry.remaining ≤ 256 * 1024 := hle
    rw [UInt64.toNat_toUInt32, toNat_remaining h, Nat.mod_eq_of_lt (by omega)]
    exact (Nat.min_eq_left hsmall).symm

/-- **The first clamp is right exactly if nothing is lost before it.** -/
theorem toNat_firstChunk_eq_iff {entry : DownloadEntry}
    (h : entry.bytesReceived.toNat ≤ entry.totalSize.toNat) :
    (firstChunk entry).toNat = min entry.remaining (256 * 1024) ↔ ¬Narrowed entry := by
  have hmod : entry.remaining < 2 ^ 32 → entry.remaining % 2 ^ 32 = entry.remaining :=
    Nat.mod_eq_of_lt
  rw [toNat_firstChunk h, Narrowed]
  omega

/-! ### Entries that have something to ask for -/

/-- An entry has the index of its place, nothing of it has come before its size, and if its size is
known and it is not complete, something is left. -/
structure Sized (i : ℕ) (entry : DownloadEntry) : Prop where
  fileIndex : entry.fileIndex = i
  unsized : entry.sizeReceived = false → entry.bytesReceived = 0
  left : entry.sizeReceived = true → entry.complete = false →
    entry.bytesReceived.toNat < entry.totalSize.toNat

theorem lasting_sized : Lasting Sized :=
  ⟨fun _ _ _ h ↦ ⟨h.fileIndex, h.unsized, h.left⟩, fun _ _ h ↦ ⟨h.fileIndex, h.unsized, nofun⟩⟩

theorem Sized.ended {i : ℕ} {entry entry' : DownloadEntry} (h : Sized i entry)
    (hcomplete : entry'.complete = true) (hindex : entry'.fileIndex = entry.fileIndex)
    (hsize : entry'.sizeReceived = false →
      entry.sizeReceived = false ∧ entry'.bytesReceived = entry.bytesReceived) :
    Sized i entry' := by
  refine ⟨hindex.trans h.fileIndex, fun hfalse ↦ ?_, fun _ hfalse ↦ ?_⟩
  · rw [(hsize hfalse).2]
    exact h.unsized (hsize hfalse).1
  · cases hcomplete.symm.trans hfalse

theorem Sized.opened {i : ℕ} {entry : DownloadEntry} (h : Sized i entry)
    (hsize : entry.sizeReceived = false) {size : UInt64} (hpos : size ≠ 0) :
    Sized i { entry with totalSize := size, sizeReceived := true, fp := true } := by
  refine ⟨h.fileIndex, nofun, fun _ _ ↦ ?_⟩
  rw [h.unsized hsize]
  exact Nat.pos_of_ne_zero fun hsize₀ ↦ hpos (UInt64.toNat_inj.1 hsize₀)

theorem Sized.received {i : ℕ} {entry : DownloadEntry} (h : Sized i entry)
    (hsize : entry.sizeReceived = true) {data : List UInt8} {writes : ℕ}
    (hlt : (received entry data writes).bytesReceived < entry.totalSize) :
    Sized i (received entry data writes) :=
  ⟨h.fileIndex, fun hfalse ↦ (by cases hsize.symm.trans hfalse),
    fun _ _ ↦ UInt64.lt_iff_toNat_lt.1 hlt⟩

/-- A state between two calls: while there is a queue, there is a channel to ask. -/
structure Askable (s : CliprdrFile) : Prop where
  sized : s.EachEntry Sized
  cliprdr : s.downloads ≠ [] → s.cliprdr = true

theorem cliprdr_send (s : CliprdrFile) (fileIndex : ℕ) (kind : ContentsKind) (offset : UInt64)
    (cbRequested : UInt32) (accepted : Bool) :
    (s.sendFileContentsRequest fileIndex kind offset cbRequested accepted).2.cliprdr =
      s.cliprdr := by
  obtain hsend | ⟨request, -, hsend⟩ :=
    sendFileContentsRequest_cases s fileIndex kind offset cbRequested accepted
  · rw [hsend]
  · rw [hsend]
    cases accepted <;> rfl

theorem cliprdr_startNext (accepts : ℕ → Bool) (n : ℕ) (s : CliprdrFile) :
    (startNext accepts n s).cliprdr = s.cliprdr := by
  refine startNext_rule (motive := fun s t ↦ t.cliprdr = s.cliprdr) (fun _ ↦ rfl)
    (fun s entry _ _ _ _ ↦ ?_) (fun _ _ h ↦ h) (fun _ _ _ _ h ↦ h) (fun s t entry _ h ↦ ?_) n s
  · exact cliprdr_send s _ _ _ _ _
  · exact h.trans (cliprdr_send s _ _ _ _ _)

theorem Askable.startNextDownload (hsized : s.EachEntry Sized) (hcliprdr : s.cliprdr = true)
    (accepts : ℕ → Bool) : (s.startNextDownload accepts).Askable :=
  ⟨eachEntry_startNext lasting_sized accepts _ hsized,
    fun _ ↦ (cliprdr_startNext accepts _ s).trans hcliprdr⟩

/-- The entry of an answer, changed. -/
theorem Changed.eachEntry {Q : ℕ → DownloadEntry → Prop} {current i : ℕ} {entry : DownloadEntry}
    (h : Changed s u current i entry) (hs : s.EachEntry Q) (hentry : Q i entry) : u.EachEntry Q :=
  hs.set hentry h.downloads

/-- **The loop**: what it asks for has the right size exactly if it comes to no file of which too
little is asked for. -/
theorem wellSized_loop_iff {accepts : ℕ → Bool} (hsized : u.EachEntry Sized)
    (hcliprdr : u.cliprdr = true) (hpieces : pieceRequests u.history = pieceRequests s.history) :
    (∀ request ∈ issued s (u.startNextDownload accepts),
        (u.startNextDownload accepts).WellSized request) ↔
      ¬u.ComesToNarrowed accepts u.current := by
  have hindexed : u.Indexed := fun i entry hentry ↦ (hsized i entry hentry).fileIndex
  cases looped_startNextDownload accepts hcliprdr hindexed with
  | finished hpasses _ _ hnone =>
    have hissued : issued s (u.startNextDownload accepts) = [] := by
      rw [issued, hnone, hpieces, List.drop_length]
    refine iff_of_true (fun request hmem ↦ ?_) ?_
    · rw [hissued] at hmem
      cases hmem
    · rintro ⟨i, entry, hstops, -, -⟩
      exact hstops.not_passes (hpasses i hstops.le)
  | stopped i entry request hstops hrequest _ _ hentry _ _ hnew =>
    cases hsize : entry.sizeReceived with
    | false =>
      rw [hsize, if_neg Bool.false_ne_true] at hnew
      have hissued : issued s (u.startNextDownload accepts) = [] := by
        rw [issued, hnew, hpieces, List.drop_length]
      refine iff_of_true (fun request hmem ↦ ?_) ?_
      · rw [hissued] at hmem
        cases hmem
      · rintro ⟨j, entry', hstops', hsize', -⟩
        obtain ⟨rfl, rfl⟩ := hstops.unique hstops'
        cases hsize.symm.trans hsize'
    | true =>
      rw [hsize, if_pos rfl] at hnew
      have hissued : issued s (u.startNextDownload accepts) = [request] := by
        rw [issued, hnew, hpieces, List.drop_left]
      rw [FirstRequest, hsize] at hrequest
      obtain ⟨hindex, -, hposition, hchunk⟩ := hrequest
      have hlt := (hsized i entry hstops.getElem?).left hsize hstops.complete
      have hiff : ¬u.ComesToNarrowed accepts u.current ↔ ¬Narrowed entry := by
        refine not_congr ⟨?_, fun h ↦ ⟨i, entry, hstops, hsize, h⟩⟩
        rintro ⟨j, entry', hstops', -, hnarrowed⟩
        obtain ⟨rfl, rfl⟩ := hstops.unique hstops'
        exact hnarrowed
      rw [hissued, List.forall_mem_singleton, hiff, ← toNat_firstChunk_eq_iff hlt.le]
      constructor
      · rintro ⟨entry', hentry', -, hcount, -⟩
        rw [hindex] at hentry'
        obtain rfl := Option.some.inj (hentry.symm.trans hentry')
        rw [← hchunk]
        exact hcount
      · intro hcount
        have hleft : 0 < entry.remaining := Nat.sub_pos_of_lt hlt
        refine ⟨{ entry with streamId := request.streamId }, by rw [hindex]; exact hentry,
          hposition, by rw [hchunk]; exact hcount, ?_⟩
        rw [hchunk, hcount]
        omega

/-! ### Answers -/

theorem StopsAt.of_eq {accepts : ℕ → Bool} {start i : ℕ} {entry : DownloadEntry}
    (h : s.StopsAt accepts start i entry) (hdownloads : t.downloads = s.downloads)
    (hdescriptors : t.descriptors = s.descriptors) : t.StopsAt accepts start i entry := by
  refine ⟨h.le, fun k hk hlt entry' hentry' ↦ ?_, ?_, h.complete, ?_, h.accepts⟩
  · rw [hdownloads] at hentry'
    rw [hdescriptors]
    exact h.passes k hk hlt entry' hentry'
  · rw [hdownloads]
    exact h.getElem?
  · rw [hdescriptors]
    exact h.directory

/-- A complete entry is passed over, whatever else it is. -/
theorem StopsAt.of_complete {accepts : ℕ → Bool} {start i j : ℕ}
    {entry entry₁ entry₂ : DownloadEntry} (hcomplete₁ : entry₁.complete = true)
    (hcomplete₂ : entry₂.complete = true)
    (h : (s.setEntry i entry₁).StopsAt accepts start j entry) :
    (s.setEntry i entry₂).StopsAt accepts start j entry := by
  have hother (k : ℕ) (hk : i ≠ k) :
      (s.setEntry i entry₂).downloads[k]? = (s.setEntry i entry₁).downloads[k]? :=
    (List.getElem?_set_ne hk).trans (List.getElem?_set_ne hk).symm
  have hself {entry' entry'' : DownloadEntry}
      (h : (s.setEntry i entry').downloads[i]? = some entry'') : entry'' = entry' := by
    obtain ⟨hlt, -⟩ := List.getElem?_eq_some_iff.1 h
    have hlt' : i < s.downloads.length := List.length_set.symm.trans_gt hlt
    exact Option.some.inj (h.symm.trans (List.getElem?_set_self hlt'))
  refine ⟨h.le, fun k hk hlt entry' hentry' ↦ ?_, ?_, h.complete, h.directory, h.accepts⟩
  · by_cases hi : i = k
    · subst hi
      rw [hself hentry']
      exact .inl hcomplete₂
    · exact h.passes k hk hlt entry' ((hother k hi).symm.trans hentry')
  · by_cases hi : i = j
    · subst hi
      have hcomplete := h.complete
      rw [hself h.getElem?, hcomplete₁] at hcomplete
      cases hcomplete
    · exact (hother j hi).trans h.getElem?

/-- **The next piece** always has the right size. -/
theorem wellSized_next (hcliprdr : u.cliprdr = true) {i : ℕ} {entry : DownloadEntry}
    (hentry : u.downloads[i]? = some entry)
    (hlt : entry.bytesReceived.toNat < entry.totalSize.toNat)
    (hpieces : pieceRequests u.history = pieceRequests s.history) (accepted : Bool) :
    ∀ request ∈ issued s (u.sendFileContentsRequest i .range entry.bytesReceived (nextChunk entry)
        accepted).2,
      (u.sendFileContentsRequest i .range entry.bytesReceived (nextChunk entry)
        accepted).2.WellSized request := by
  obtain ⟨hlength, -⟩ := List.getElem?_eq_some_iff.1 hentry
  obtain ⟨-, hsent⟩ :=
    sent_send hcliprdr hentry .range entry.bytesReceived (nextChunk entry) accepted
  intro request hmem
  rw [issued, hsent.history, pieceRequests_concat, hpieces, List.drop_left] at hmem
  obtain rfl := List.mem_singleton.1 hmem
  have hchunk := toNat_nextChunk hlt.le
  have hleft : 0 < entry.remaining := Nat.sub_pos_of_lt hlt
  refine ⟨{ entry with streamId := u.nextStreamId }, ?_, position_contentsRequest, hchunk, ?_⟩
  · rw [hsent.downloads]
    exact List.getElem?_set_self hlength
  · have hpos : 1 ≤ (nextChunk entry).toNat := by
      rw [hchunk]
      omega
    exact hpos

/-- **An answer for an entry**: what it asks for has the right size exactly if too little is not. -/
theorem wellSized_receive_iff (h : s.Askable) {i : ℕ} {entry : DownloadEntry}
    (hentry : s.downloads[i]? = some entry) (response : ContentsResponse)
    (surroundings : Surroundings) :
    (∀ request ∈ issued s (s.receive i entry response surroundings),
        (s.receive i entry response surroundings).WellSized request) ↔
      ¬s.Narrows i entry response surroundings := by
  have hcliprdr := h.cliprdr (List.ne_nil_of_mem (List.mem_of_getElem? hentry))
  have hsized := h.sized i entry hentry
  cases received_receive (s := s) (i := i) response surroundings with
  | ended u entry' hends hcomplete hindex hsize hchanged ht =>
    rw [ht, wellSized_loop_iff (hchanged.eachEntry h.sized (hsized.ended hcomplete hindex hsize))
      (hchanged.cliprdr.trans hcliprdr) hchanged.pieces, hchanged.current]
    refine not_congr ⟨?_, ?_⟩
    · rintro ⟨j, other, hstops, hother⟩
      refine .inl ⟨hends, j, other, .of_complete hcomplete rfl ?_, hother⟩
      exact hstops.of_eq hchanged.downloads.symm hchanged.descriptors.symm
    · rintro (⟨-, j, other, hstops, hother⟩ | ⟨hnot, -⟩)
      · refine ⟨j, other, ?_, hother⟩
        exact (StopsAt.of_complete rfl hcomplete hstops).of_eq hchanged.downloads
          hchanged.descriptors
      · exact absurd hends hnot
  | opened u hends hsize hpos hchanged ht =>
    rw [ht, wellSized_loop_iff (hchanged.eachEntry h.sized (hsized.opened hsize hpos))
      (hchanged.cliprdr.trans hcliprdr) hchanged.pieces, hchanged.current]
    refine not_congr ⟨?_, ?_⟩
    · rintro ⟨j, other, hstops, hother⟩
      refine .inr ⟨hends, hsize, j, other, ?_, hother⟩
      exact hstops.of_eq hchanged.downloads.symm hchanged.descriptors.symm
    · rintro (⟨hends', -⟩ | ⟨-, -, j, other, hstops, hother⟩)
      · exact absurd hends' hends
      · exact ⟨j, other, hstops.of_eq hchanged.downloads hchanged.descriptors, hother⟩
  | ignored hends hsize hnothing ht =>
    rw [ht, issued, List.drop_length]
    refine iff_of_true nofun ?_
    rintro (⟨hends', -⟩ | ⟨-, hfalse, -⟩)
    · exact hends hends'
    · cases hsize.symm.trans hfalse
  | continued u data hends hsize hdata hne hfp hlt hchanged ht =>
    refine iff_of_true ?_ ?_
    · obtain ⟨hlength, -⟩ := List.getElem?_eq_some_iff.1 hentry
      have hhere : u.downloads[i]? = some (received entry data surroundings.writes) := by
        rw [hchanged.downloads, List.getElem?_set_self hlength]
      rw [ht, hsized.fileIndex]
      exact wellSized_next (hchanged.cliprdr.trans hcliprdr) hhere (UInt64.lt_iff_toNat_lt.1 hlt)
        hchanged.pieces _
    · rintro (⟨hends', -⟩ | ⟨-, hfalse, -⟩)
      · exact hends hends'
      · cases hsize.symm.trans hfalse

theorem Askable.receive (h : s.Askable) {i : ℕ} {entry : DownloadEntry}
    (hentry : s.downloads[i]? = some entry) (response : ContentsResponse)
    (surroundings : Surroundings) : (s.receive i entry response surroundings).Askable := by
  have hcliprdr := h.cliprdr (List.ne_nil_of_mem (List.mem_of_getElem? hentry))
  have hsized := h.sized i entry hentry
  cases received_receive (s := s) (i := i) response surroundings with
  | ended u entry' hends hcomplete hindex hsize hchanged ht =>
    rw [ht]
    exact .startNextDownload (hchanged.eachEntry h.sized (hsized.ended hcomplete hindex hsize))
      (hchanged.cliprdr.trans hcliprdr) _
  | opened u hends hsize hpos hchanged ht =>
    rw [ht]
    exact .startNextDownload (hchanged.eachEntry h.sized (hsized.opened hsize hpos))
      (hchanged.cliprdr.trans hcliprdr) _
  | ignored hends hsize hnothing ht =>
    rw [ht]
    exact h
  | continued u data hends hsize hdata hne hfp hlt hchanged ht =>
    rw [ht]
    exact ⟨(hchanged.eachEntry h.sized (hsized.received hsize hlt)).send lasting_sized _ _ _ _ _,
      fun _ ↦ (cliprdr_send _ _ _ _ _ _).trans (hchanged.cliprdr.trans hcliprdr)⟩

/-- **An answer**, if there is a download and it has an entry for it. -/
theorem fileContentsResponse_eq (s : CliprdrFile) (response : ContentsResponse)
    (surroundings : Surroundings) :
    s.fileContentsResponse response surroundings = s ∧
        ¬(s.downloading = true ∧ ∃ i entry, s.entryOf response.streamId = some (i, entry)) ∨
      s.downloading = true ∧ ∃ i entry, s.entryOf response.streamId = some (i, entry) ∧
        s.downloads[i]? = some entry ∧
        s.fileContentsResponse response surroundings =
          s.receive i entry response surroundings := by
  rw [fileContentsResponse]
  cases hdownloading : s.downloading with
  | false => exact .inl ⟨if_pos rfl, fun h ↦ by cases h.1⟩
  | true =>
    cases hentryOf : s.entryOf response.streamId with
    | none =>
      refine .inl ⟨ite_self s, ?_⟩
      rintro ⟨-, i, entry, hsome⟩
      cases hsome
    | some found =>
      obtain ⟨i, entry⟩ := found
      have hentry := entryOf_getElem? hentryOf
      have hne : s.downloads ≠ [] := List.ne_nil_of_mem (List.mem_of_getElem? hentry)
      refine .inr ⟨rfl, i, entry, rfl, hentry, ?_⟩
      rw [List.isEmpty_eq_false_iff.2 hne, if_neg (by decide)]

/-! ### Calls -/

theorem sized_newDownloads (tempDir : Path) (descriptors : List FileDescriptor) {i : ℕ}
    {entry : DownloadEntry} (hentry : (newDownloads tempDir descriptors)[i]? = some entry) :
    Sized i entry ∧ entry.sizeReceived = false := by
  rw [newDownloads, List.getElem?_mapIdx] at hentry
  obtain ⟨descriptor, -, rfl⟩ := Option.map_eq_some_iff.1 hentry
  exact ⟨⟨rfl, fun _ ↦ rfl, nofun⟩, rfl⟩

/-- A download begins without a request for a piece. -/
theorem requestDownload_spec_pieces (h : s.Askable) (tempDir : Path) (accepts : ℕ → Bool) :
    (s.requestDownload tempDir accepts).Askable ∧
      ∀ request ∈ issued s (s.requestDownload tempDir accepts),
        (s.requestDownload tempDir accepts).WellSized request := by
  rw [requestDownload]
  split
  · refine ⟨h, fun request hmem ↦ ?_⟩
    rw [issued, List.drop_length] at hmem
    cases hmem
  · next hgo =>
    have hcliprdr : s.cliprdr = true := by
      rw [Bool.or_eq_true, not_or, Bool.not_eq_true, Bool.not_eq_false'] at hgo
      exact hgo.1
    have hsized : EachEntry Sized ({ s.freeDownloads with
        downloads := newDownloads tempDir s.descriptors
        downloading := true }.emit .started) :=
      fun i entry hentry ↦ (sized_newDownloads tempDir s.descriptors hentry).1
    refine ⟨.startNextDownload hsized hcliprdr accepts, ?_⟩
    refine (wellSized_loop_iff hsized hcliprdr (pieceRequests_concat_of_none rfl)).2 ?_
    rintro ⟨i, entry, hstops, hsize, -⟩
    cases hsize.symm.trans (sized_newDownloads tempDir s.descriptors hstops.getElem?).2

end CliprdrFile

open CliprdrFile

variable {parseFileList : List UInt8 → List FileDescriptor}

/-- **One call** asks for no piece, and leaves the entries as they should be. -/
theorem Clipboard.askable_call {s : Clipboard} (call : ClipboardCall) (h : s.file.Askable) :
    (s.call parseFileList call).file.Askable ∧
      ∀ request ∈ issued s.file (s.call parseFileList call).file,
        (s.call parseFileList call).file.WellSized request := by
  have hnothing {t : CliprdrFile} (ht : t.history = s.file.history) :
      ∀ request ∈ issued s.file t, t.WellSized request := by
    intro request hmem
    rw [issued, ht, List.drop_length] at hmem
    cases hmem
  cases call with
  | channelConnected => exact ⟨⟨h.sized, fun _ ↦ rfl⟩, hnothing rfl⟩
  | channelDisconnected => exact ⟨⟨.of_nil rfl, fun hne ↦ absurd rfl hne⟩, hnothing rfl⟩
  | monitorReady => exact ⟨h, hnothing rfl⟩
  | formatList formats acknowledged sent =>
    rw [Clipboard.call]
    dsimp only
    split
    · exact ⟨⟨.of_nil rfl, fun hne ↦ absurd rfl hne⟩, hnothing rfl⟩
    · exact ⟨h, hnothing rfl⟩
  | dataResponse response =>
    rw [Clipboard.call]
    dsimp only
    split
    · exact ⟨⟨h.sized, h.cliprdr⟩, hnothing rfl⟩
    · exact ⟨h, hnothing rfl⟩
  | requestDownload tempDir accepts => exact requestDownload_spec_pieces h tempDir accepts

/-! ### The exact condition -/

/-- **The answers after which the right number of bytes is asked for.** While a download is going
on, the answer does not lead the queue to a file of which too little is asked for. -/
def FittingStep (s : Clipboard) : DownloadAction → Prop
  | .call _ => True
  | .contents response surroundings => s.file.downloading = true → ∀ i entry,
      s.file.entryOf response.streamId = some (i, entry) →
        ¬s.file.Narrows i entry response surroundings

/-- **The exact condition.** In a run every request for a piece is for what comes next in its file,
256 KiB or what is left, exactly if no answer in it leads the queue to a file of which too little is
asked for. -/
theorem wellSized_iff (parseFileList : List UInt8 → List FileDescriptor)
    (actions : List DownloadAction) :
    (∀ pre action post s, actions = pre ++ action :: post →
        (downloadSystem parseFileList).run {} pre = some s →
        ∀ t, (downloadSystem parseFileList).step s action = some t →
          ∀ request ∈ issued s.file t.file, t.file.WellSized request) ↔
      (downloadSystem parseFileList).StepsMeet FittingStep {} actions := by
  have hinit : Askable {} := ⟨.of_nil rfl, fun hne ↦ absurd rfl hne⟩
  rw [← StepSystem.stepsMeet_iff (C := fun (s : Clipboard) action ↦
    ∀ t, (downloadSystem parseFileList).step s action = some t →
      ∀ request ∈ issued s.file t.file, t.file.WellSized request)]
  refine StepSystem.stepsMeet_congr (I := fun s : Clipboard ↦ s.file.Askable) ?_ ?_ hinit
  · intro s action t h hstep
    cases action with
    | call call =>
      obtain rfl := Option.some.inj hstep
      exact (Clipboard.askable_call call h).1
    | contents response surroundings =>
      obtain rfl := Option.some.inj hstep
      show (s.file.fileContentsResponse response surroundings).Askable
      rcases fileContentsResponse_eq s.file response surroundings with ⟨heq, -⟩ |
        ⟨-, i, entry, -, hentry, heq⟩
      · rw [heq]
        exact h
      · rw [heq]
        exact h.receive hentry response surroundings
  · intro s action h
    cases action with
    | call call =>
      refine iff_of_true (fun t hstep ↦ ?_) trivial
      obtain rfl := Option.some.inj hstep
      exact (Clipboard.askable_call call h).2
    | contents response surroundings =>
      have hstep : (∀ t, (downloadSystem parseFileList).step s (.contents response surroundings) =
            some t → ∀ request ∈ issued s.file t.file, t.file.WellSized request) ↔
          ∀ request ∈ issued s.file (s.file.fileContentsResponse response surroundings),
            (s.file.fileContentsResponse response surroundings).WellSized request := by
        refine ⟨fun h ↦ h _ rfl, fun h t ht ↦ ?_⟩
        obtain rfl := Option.some.inj ht
        exact h
      rw [hstep]
      rcases fileContentsResponse_eq s.file response surroundings with ⟨heq, hnone⟩ |
        ⟨hdownloading, i, entry, hentryOf, hentry, heq⟩
      · rw [heq, issued, List.drop_length]
        exact iff_of_true nofun fun hdownloading i entry hentryOf ↦
          absurd ⟨hdownloading, i, entry, hentryOf⟩ hnone
      · rw [heq, wellSized_receive_iff h hentry]
        refine ⟨fun hfits _ j other hother ↦ ?_, fun hfits ↦ hfits hdownloading i entry hentryOf⟩
        obtain ⟨rfl, rfl⟩ := Prod.mk.inj (Option.some.inj (hentryOf.symm.trans hother))
        exact hfits

/-- A file is announced and downloaded, and has `2 ^ 32` bytes. -/
def hugeFile : List DownloadAction :=
  [.call .channelConnected,
    .call (.formatList [⟨49270, some "FileGroupDescriptorW"⟩] true true),
    .call (.dataResponse ⟨true, some [1]⟩),
    .call (.requestDownload [0x74] fun _ ↦ true)]

/-- **Its first piece is asked for with no byte.** -/
theorem hugeFile_narrowed :
    ∃ s t request, (downloadSystem fun _ ↦ [⟨0, none⟩]).run {} hugeFile = some s ∧
      (downloadSystem fun _ ↦ [⟨0, none⟩]).step s
        (.contents ⟨1, true, some [0, 0, 0, 0, 1, 0, 0, 0]⟩ ⟨fun _ ↦ true, true, 0⟩) = some t ∧
      issued s.file t.file = [request] ∧ request.cbRequested = 0 ∧
      t.file.downloads.map DownloadEntry.remaining = [2 ^ 32] ∧ ¬t.file.WellSized request := by
  refine ⟨_, _, _, rfl, rfl, rfl, by decide, by decide, ?_⟩
  rintro ⟨entry, -, -, -, hpos⟩
  exact absurd hpos (by decide)

end RdpMcp
