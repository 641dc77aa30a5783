import RdpMcp.Native.DownloadHistory
import RdpMcp.Native.DownloadQueue

/-!
# Stream identifiers of downloads

Every request has a new stream identifier, as long as fewer than `2 ^ 31` are sent: the next one is
that behind all that have been sent (`Ids`). So a request that is sent for an entry is not taken for
one for another entry, nor is an earlier request for one for this entry: if no request was for an
entry before (`Unasked`), then now only this one is, and it is for what the entry needs next
(`Asked`).
-/

open ListUpdate

namespace RdpMcp

/-! ### Stream identifiers -/

namespace CliprdrFile

/-- The stream identifiers of the entries. -/
def entryIds (s : CliprdrFile) : List UInt32 :=
  s.downloads.map DownloadEntry.streamId

/-- **Stream identifiers are new**: the next one is that behind all that have been sent. -/
structure Ids (s : CliprdrFile) : Prop where
  next : sentRequests s.history + 1 < 2 ^ 31 →
    s.nextStreamId.toNat = sentRequests s.history + 1
  requested : ∀ request ∈ s.requests,
    0 < request.streamId.toNat ∧ request.streamId.toNat ≤ sentRequests s.history
  distinct : (s.requests.map ContentsRequest.streamId).Nodup
  entries : ∀ id ∈ s.entryIds, id.toNat ≤ sentRequests s.history

/-- No request is for an entry. -/
def Unasked (s : CliprdrFile) : Prop :=
  ∀ request ∈ s.requests, request.streamId ∉ s.entryIds

/-- The request is for what the entry needs next. -/
def AsksFor (request : ContentsRequest) (i : ℕ) (entry : DownloadEntry) : Prop :=
  request.listIndex = i ∧
    match request.kind with
    | .size => entry.sizeReceived = false
    | .range => entry.sizeReceived = true ∧ request.position = entry.bytesReceived.toNat

/-- A request that is for an entry is for the one under the cursor, and for what it needs next. -/
def Asked (s : CliprdrFile) : Prop :=
  ∀ request ∈ s.requests, ∀ i entry, s.downloads[i]? = some entry →
    entry.streamId = request.streamId → i = s.current ∧ AsksFor request i entry

/-- Two states with the same stream identifiers. -/
structure SameIds (s t : CliprdrFile) : Prop where
  next : t.nextStreamId = s.nextStreamId
  requests : t.requests = s.requests
  entries : t.entryIds = s.entryIds
  sent : sentRequests t.history = sentRequests s.history

variable {s t u : CliprdrFile}

theorem SameIds.ids (h : SameIds s t) (hids : s.Ids) : t.Ids where
  next := by
    rw [h.sent, h.next]
    exact hids.next
  requested := by
    rw [h.requests, h.sent]
    exact hids.requested
  distinct := by
    rw [h.requests]
    exact hids.distinct
  entries := by
    rw [h.entries, h.sent]
    exact hids.entries

theorem SameIds.unasked (h : SameIds s t) (hunasked : s.Unasked) : t.Unasked := by
  rw [Unasked, h.requests, h.entries]
  exact hunasked

theorem sameIds_emit (s : CliprdrFile) {effect : FileEffect} (h : effect.isRequest = false) :
    SameIds s (s.emit effect) := by
  refine ⟨rfl, rfl, rfl, ?_⟩
  rw [emit, sentRequests_concat, h]
  rfl

theorem Unasked.asked (h : s.Unasked) : s.Asked := by
  intro request hrequest i entry hentry heq
  refine absurd ?_ (h request hrequest)
  rw [← heq]
  exact List.mem_map_of_mem (List.mem_of_getElem? hentry)

/-! ### Sending a request -/

theorem toNat_streamIdAfter {id : UInt32} (h : id.toNat + 1 < 2 ^ 31) :
    (streamIdAfter id).toNat = id.toNat + 1 := by
  have hadd : (id + 1).toNat = id.toNat + 1 := by
    rw [UInt32.toNat_add]
    exact Nat.mod_eq_of_lt (show id.toNat + 1 < 2 ^ 32 by omega)
  have hle : ¬id + 1 > maxStreamId := by
    rw [gt_iff_lt, UInt32.lt_iff_toNat_lt, hadd]
    show ¬0x7fffffff < id.toNat + 1
    omega
  rw [streamIdAfter, if_neg hle, hadd]

theorem mem_entryIds_iff {id : UInt32} :
    id ∈ s.entryIds ↔
      ∃ (i : ℕ) (entry : DownloadEntry), s.downloads[i]? = some entry ∧ entry.streamId = id := by
  rw [entryIds, List.mem_map]
  constructor
  · rintro ⟨entry, hmem, rfl⟩
    obtain ⟨i, hi⟩ := List.mem_iff_getElem?.1 hmem
    exact ⟨i, entry, hi, rfl⟩
  · rintro ⟨i, entry, hi, rfl⟩
    exact ⟨entry, List.mem_of_getElem? hi, rfl⟩

/-- The entries behind a request. -/
theorem getElem?_track {i fileIndex : ℕ} {entry' : DownloadEntry}
    (h : (s.track fileIndex).downloads[i]? = some entry') :
    ∃ entry, s.downloads[i]? = some entry ∧
      entry' = { entry with streamId := entry'.streamId } ∧
      (i = fileIndex ∧ entry'.streamId = s.nextStreamId ∨ entry'.streamId = entry.streamId) := by
  rw [track, List.getElem?_modify] at h
  obtain ⟨entry, hentry, rfl⟩ := Option.map_eq_some_iff.1 h
  refine ⟨entry, hentry, ?_⟩
  by_cases hi : fileIndex = i
  · subst hi
    simp
  · simp [hi]

theorem sentRequests_tracked (s : CliprdrFile) (fileIndex : ℕ) (request : ContentsRequest)
    (accepted : Bool) :
    sentRequests (s.tracked fileIndex request accepted).history = sentRequests s.history + 1 :=
  sentRequests_concat _ _

/-- The next stream identifier is none of those in use. -/
theorem Ids.lt_nextStreamId (hids : s.Ids) (hsent : sentRequests s.history + 1 < 2 ^ 31)
    {id : UInt32} (hle : id.toNat ≤ sentRequests s.history) : id ≠ s.nextStreamId := by
  rintro rfl
  have := hids.next hsent
  omega

theorem ids_tracked (hids : s.Ids) (hsent : sentRequests s.history + 1 < 2 ^ 31) (fileIndex : ℕ)
    (request : ContentsRequest) (accepted : Bool) :
    (s.tracked fileIndex request accepted).Ids := by
  have hnext := hids.next hsent
  have hcount := sentRequests_tracked s fileIndex request accepted
  refine ⟨fun hlt ↦ ?_, fun r hr ↦ ?_, hids.distinct, fun id hid ↦ ?_⟩
  · rw [hcount] at hlt ⊢
    show (streamIdAfter s.nextStreamId).toNat = _
    rw [toNat_streamIdAfter (by omega), hnext]
  · obtain ⟨hpos, hle⟩ := hids.requested r hr
    exact ⟨hpos, by omega⟩
  · rw [hcount]
    obtain ⟨i, entry', hentry', rfl⟩ := mem_entryIds_iff.1 hid
    obtain ⟨entry, hentry, -, ⟨-, hnew⟩ | hold⟩ := getElem?_track hentry'
    · rw [hnew, hnext]
    · rw [hold]
      exact Nat.le_succ_of_le (hids.entries _ (mem_entryIds_iff.2 ⟨i, entry, hentry, rfl⟩))

/-- A request that is not accepted leaves no request for an entry. -/
theorem unasked_tracked (hids : s.Ids) (hunasked : s.Unasked)
    (hsent : sentRequests s.history + 1 < 2 ^ 31) (fileIndex : ℕ) (request : ContentsRequest)
    (accepted : Bool) : (s.tracked fileIndex request accepted).Unasked := by
  intro r hr hid
  obtain ⟨i, entry', hentry', heq⟩ := mem_entryIds_iff.1 hid
  obtain ⟨entry, hentry, -, ⟨-, hnew⟩ | hold⟩ := getElem?_track hentry'
  · exact hids.lt_nextStreamId hsent (hids.requested r hr).2 (heq.symm.trans hnew)
  · exact hunasked r hr (mem_entryIds_iff.2 ⟨i, entry, hentry, hold.symm.trans heq⟩)

section Send

variable {fileIndex : ℕ} {kind : ContentsKind} {offset : UInt64} {cbRequested : UInt32}
  {accepted : Bool}

/-- The position of a request is the offset that is asked for. -/
theorem position_contentsRequest :
    (s.contentsRequest fileIndex kind offset cbRequested).position = offset.toNat := by
  have hlt := offset.toNat_lt
  show (offset >>> 32).toUInt32.toNat * 2 ^ 32 + offset.toUInt32.toNat = offset.toNat
  rw [UInt64.toNat_toUInt32, UInt64.toNat_toUInt32, UInt64.toNat_shiftRight]
  show offset.toNat >>> 32 % 2 ^ 32 * 2 ^ 32 + offset.toNat % 2 ^ 32 = offset.toNat
  rw [Nat.shiftRight_eq_div_pow]
  omega

/-- **Sending a request** keeps stream identifiers new. -/
theorem ids_send (hids : s.Ids)
    (hsent : sentRequests
      (s.sendFileContentsRequest fileIndex kind offset cbRequested accepted).2.history < 2 ^ 31) :
    (s.sendFileContentsRequest fileIndex kind offset cbRequested accepted).2.Ids := by
  obtain h | ⟨request, hrequest, h⟩ :=
    sendFileContentsRequest_cases s fileIndex kind offset cbRequested accepted
  · rw [h]
    exact hids
  · rw [h] at hsent ⊢
    have hcount := sentRequests_tracked s fileIndex request accepted
    cases accepted with
    | false => exact ids_tracked hids (hcount ▸ hsent) fileIndex request false
    | true =>
      have hlt : sentRequests s.history + 1 < 2 ^ 31 := hcount ▸ hsent
      have htracked := ids_tracked hids hlt fileIndex request true
      have hid : request.streamId = s.nextStreamId := hrequest ▸ rfl
      refine ⟨htracked.next, fun r hr ↦ ?_, ?_, htracked.entries⟩
      · rcases List.mem_append.1 hr with hold | hnew
        · exact htracked.requested r hold
        · obtain rfl := List.mem_singleton.1 hnew
          rw [hid, hids.next hlt]
          exact ⟨Nat.succ_pos _, hcount.ge⟩
      · show ((s.requests ++ [request]).map ContentsRequest.streamId).Nodup
        rw [List.map_append, List.nodup_append]
        refine ⟨hids.distinct, List.pairwise_singleton _ _, fun id hold id' hnew ↦ ?_⟩
        obtain ⟨r, hr, rfl⟩ := List.mem_map.1 hold
        rw [List.mem_singleton.1 hnew, hid]
        exact hids.lt_nextStreamId hlt (hids.requested r hr).2

/-- **A request that fails** leaves no request for an entry. -/
theorem unasked_send (hids : s.Ids) (hunasked : s.Unasked)
    (hsent : sentRequests
      (s.sendFileContentsRequest fileIndex kind offset cbRequested accepted).2.history < 2 ^ 31)
    (hfailed : (s.sendFileContentsRequest fileIndex kind offset cbRequested accepted).1 = false) :
    (s.sendFileContentsRequest fileIndex kind offset cbRequested accepted).2.Unasked := by
  obtain h | ⟨request, hrequest, h⟩ :=
    sendFileContentsRequest_cases s fileIndex kind offset cbRequested accepted
  · rw [h]
    exact hunasked
  · rw [h] at hsent hfailed ⊢
    obtain rfl : accepted = false := hfailed
    have hcount := sentRequests_tracked s fileIndex request false
    exact unasked_tracked hids hunasked (hcount ▸ hsent) fileIndex request false

/-- **A request for what the entry under the cursor needs** is the only request for an entry. -/
theorem asked_send {entry : DownloadEntry} (hids : s.Ids) (hunasked : s.Unasked)
    (hsent : sentRequests
      (s.sendFileContentsRequest fileIndex kind offset cbRequested accepted).2.history < 2 ^ 31)
    (hindex : fileIndex = s.current) (hentry : s.downloads[s.current]? = some entry)
    (hkind : match kind with
      | .size => entry.sizeReceived = false
      | .range => entry.sizeReceived = true ∧ offset = entry.bytesReceived) :
    (s.sendFileContentsRequest fileIndex kind offset cbRequested accepted).2.Asked := by
  subst hindex
  obtain h | ⟨request, hrequest, h⟩ :=
    sendFileContentsRequest_cases s s.current kind offset cbRequested accepted
  · rw [h]
    exact hunasked.asked
  · rw [h] at hsent ⊢
    have hcount := sentRequests_tracked s s.current request accepted
    cases accepted with
    | false => exact (unasked_tracked hids hunasked (hcount ▸ hsent) s.current request false).asked
    | true =>
      have hlt : sentRequests s.history + 1 < 2 ^ 31 := hcount ▸ hsent
      have hold := unasked_tracked hids hunasked hlt s.current request true
      intro r hr i entry' hentry' heq
      rcases List.mem_append.1 hr with hr | hnew
      · exact hold.asked r hr i entry' hentry' heq
      · obtain rfl := List.mem_singleton.1 hnew
        have hid : r.streamId = s.nextStreamId := hrequest ▸ rfl
        obtain ⟨entry₀, hentry₀, hsame, ⟨rfl, -⟩ | hstreamId⟩ := getElem?_track hentry'
        · obtain rfl := Option.some.inj (hentry₀.symm.trans hentry)
          refine ⟨rfl, hrequest ▸ rfl, ?_⟩
          rw [hsame, hrequest, position_contentsRequest]
          cases kind with
          | size => exact hkind
          | range => exact ⟨hkind.1, congrArg UInt64.toNat hkind.2⟩
        · -- another entry has an older identifier
          have hmem := mem_entryIds_iff.2 ⟨i, entry₀, hentry₀, rfl⟩
          exact absurd (hstreamId.symm.trans (heq.trans hid))
            (hids.lt_nextStreamId hlt (hids.entries _ hmem))

end Send

end CliprdrFile

end RdpMcp
