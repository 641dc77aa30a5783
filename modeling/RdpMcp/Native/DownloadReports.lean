import RdpMcp.Native.DownloadExact
import RdpMcp.Native.InFlight

/-!
# Every file of a download is reported once

Anything may go wrong here: the server answers a request with a failure, a wrong size, too much or
no data, or never; requests are refused, files cannot be opened, and less is written than has
arrived. Downloads are restarted, and files are announced anew. But a request is answered at most
once, and there are fewer than `2 ^ 31` of them.

Then a download reports its files **one after the other and each exactly once**, as done or as
failed, and what it has reported at any time are the files below the cursor; when it is finished,
these are all (`files_accounted`). A file is passed in one of two ways: the loop passes a directory
or a file whose size cannot be asked for, and an answer ends the file under the cursor. Both report
it (`Paused.pass_set`), and nothing else does.
-/

open ListUpdate

namespace RdpMcp

/-! ### What is reported -/

/-- The file that is reported, as done or as failed. -/
def FileEffect.outcomeIndex : FileEffect → Option ℕ
  | done fileIndex _ _ _ _ _ => some fileIndex
  | error fileIndex _ => some fileIndex
  | _ => none

/-- The files that are reported. -/
def outcomeIndices (history : List FileEffect) : List ℕ :=
  history.filterMap FileEffect.outcomeIndex

/-- **Within each download**, the files are reported from the first on, each once. -/
def ReportedOnce (history : List FileEffect) : Prop :=
  ∀ during, .started :: during <:+: history → .started ∉ during →
    ∃ n, outcomeIndices during = List.range n

/-- The download that has begun last has reported the files below an index, and whether it is
finished. -/
def ReportedUpTo (history : List FileEffect) (n : ℕ) (finished : Prop) : Prop :=
  ∃ during, .started :: during <:+ history ∧ .started ∉ during ∧
    outcomeIndices during = List.range n ∧ (.finished ∈ during ↔ finished)

section History

variable {history during during' : List FileEffect} {effect : FileEffect} {n : ℕ} {finished : Prop}

theorem outcomeIndices_concat (history : List FileEffect) (effect : FileEffect) :
    outcomeIndices (history ++ [effect]) =
      outcomeIndices history ++ effect.outcomeIndex.toList := by
  rw [outcomeIndices, List.filterMap_append]
  cases h : effect.outcomeIndex with
  | none => simp [outcomeIndices, h]
  | some i => simp [outcomeIndices, h]

/-- There is only one download that has begun last. -/
theorem eq_of_started_suffix (h : .started :: during <:+ history) (hstarted : .started ∉ during)
    (h' : .started :: during' <:+ history) (hstarted' : .started ∉ during') :
    during = during' := by
  have hcons {a b : List FileEffect} (hsuffix : .started :: a <:+ .started :: b)
      (hb : .started ∉ b) : a = b := by
    rcases List.suffix_cons_iff.1 hsuffix with heq | hinside
    · exact (List.cons.inj heq).2
    · exact absurd (hinside.subset List.mem_cons_self) hb
  rcases List.suffix_or_suffix_of_suffix h h' with hsuffix | hsuffix
  · exact hcons hsuffix hstarted'
  · exact (hcons hsuffix hstarted).symm

/-- A suffix of a history to which an effect is added that does not begin a download. -/
theorem started_suffix_concat (hne : effect ≠ .started)
    (h : .started :: during <:+ history ++ [effect]) :
    ∃ before, during = before ++ [effect] ∧ .started :: before <:+ history := by
  rcases List.suffix_concat_iff.1 h with hnil | ⟨before, hbefore, hsuffix⟩
  · cases hnil
  · cases before with
    | nil =>
      obtain ⟨rfl, -⟩ := List.cons.inj hbefore
      exact absurd rfl hne
    | cons first before =>
      obtain ⟨rfl, rfl⟩ := List.cons.inj hbefore
      exact ⟨before, rfl, hsuffix⟩

variable (effect) in
/-- The next effect of the download that has begun last. -/
theorem ReportedUpTo.concat (h : ReportedUpTo history n finished) (hne : effect ≠ .started)
    {m : ℕ} (hindices : List.range n ++ effect.outcomeIndex.toList = List.range m) :
    ReportedUpTo (history ++ [effect]) m (finished ∨ .finished = effect) := by
  obtain ⟨during, hsuffix, hstarted, hreported, hfinished⟩ := h
  refine ⟨during ++ [effect], ?_, ?_, ?_, ?_⟩
  · obtain ⟨before, rfl⟩ := hsuffix
    exact ⟨before, by rw [List.append_assoc, List.cons_append]⟩
  · rw [List.mem_append, not_or, List.mem_singleton]
    exact ⟨hstarted, hne.symm⟩
  · rw [outcomeIndices_concat, hreported, hindices]
  · rw [List.mem_append, List.mem_singleton, hfinished]

/-- A download that has just begun. -/
theorem reportedUpTo_started (history : List FileEffect) :
    ReportedUpTo (history ++ [.started]) 0 False :=
  ⟨[], ⟨history, rfl⟩, List.not_mem_nil, rfl, iff_of_false List.not_mem_nil id⟩

/-- What is no report, and a report behind all that have been made in the download. -/
theorem ReportedOnce.concat (h : ReportedOnce history)
    (hreport : ∀ i, effect.outcomeIndex = some i → ∃ finished, ReportedUpTo history i finished) :
    ReportedOnce (history ++ [effect]) := by
  intro during hinfix hstarted
  rcases List.infix_concat_iff.1 hinfix with hsuffix | hold
  · by_cases hne : effect = .started
    · -- a download begins
      rcases List.suffix_concat_iff.1 hsuffix with hnil | ⟨before, hbefore, -⟩
      · cases hnil
      · cases before with
        | nil =>
          obtain ⟨-, rfl⟩ := List.cons.inj hbefore
          exact ⟨0, rfl⟩
        | cons first before =>
          obtain ⟨-, rfl⟩ := List.cons.inj hbefore
          exact absurd (List.mem_append_right _ (List.mem_singleton.2 hne.symm)) hstarted
    · obtain ⟨before, rfl, hbefore⟩ := started_suffix_concat hne hsuffix
      have hstarted' : .started ∉ before := fun hmem ↦ hstarted (List.mem_append_left _ hmem)
      rw [outcomeIndices_concat]
      cases hindex : effect.outcomeIndex with
      | none =>
        obtain ⟨n, hn⟩ := h before hbefore.isInfix hstarted'
        exact ⟨n, by rw [hn]; exact List.append_nil _⟩
      | some i =>
        obtain ⟨_, during, hduring, hnotStarted, hreported, -⟩ := hreport i hindex
        obtain rfl := eq_of_started_suffix hbefore hstarted' hduring hnotStarted
        exact ⟨i + 1, by rw [hreported, List.range_succ]; rfl⟩
  · exact h during hold hstarted

end History

/-! ### A server that answers as it likes -/

/-- What happens to the clipboard modules: a call, or an answer to an accepted request. -/
inductive FailingAction where
  | call (call : ClipboardCall)
  | answer (k : ℕ) (ok : Bool) (data : Option (List UInt8)) (surroundings : Surroundings)

/-- The clipboard with a server that answers every accepted request at most once, as it likes. -/
def failingSystem (parseFileList : List UInt8 → List FileDescriptor) :
    StepSystem Clipboard FailingAction where
  step s
    | .call call => some (s.call parseFileList call)
    | .answer k ok data surroundings =>
      s.file.requests[k]?.map fun request ↦
        (s.setRequests (s.file.requests.eraseIdx k)).contents ⟨request.streamId, ok, data⟩
          surroundings

namespace CliprdrFile

variable {s t : CliprdrFile} {effect : FileEffect}

/-- **The account of a download**: what has been reported lies below the cursor, and nothing behind
it is complete. -/
structure Tallied (s : CliprdrFile) : Prop where
  once : ReportedOnce s.history
  upTo : s.downloads ≠ [] → ReportedUpTo s.history s.current (s.downloading = false)
  indexed : s.Indexed
  incomplete : ∀ i entry, s.downloads[i]? = some entry → s.current ≤ i → entry.complete = false
  within : s.current ≤ s.downloads.length

/-- In a download, no request is for an entry: the loop may look for the next file. -/
structure Paused (s : CliprdrFile) : Prop where
  tallied : s.Tallied
  ids : s.Ids
  unasked : s.Unasked
  downloading : s.downloading = true

/-- A state between two calls. -/
structure Tended (s : CliprdrFile) : Prop where
  tallied : s.Tallied
  ids : s.Ids
  asked : s.Asked
  finished : s.downloading = false → s.current = s.downloads.length

theorem Paused.tended (h : s.Paused) : s.Tended :=
  ⟨h.tallied, h.ids, h.unasked.asked, fun hfalse ↦ by cases h.downloading.symm.trans hfalse⟩

/-- `Tallied` looks at the queue and the history. -/
theorem Tallied.of_eq (h : s.Tallied) (hhistory : t.history = s.history)
    (hdownloads : t.downloads = s.downloads) (hcurrent : t.current = s.current)
    (hdownloading : t.downloading = s.downloading) : t.Tallied := by
  constructor
  · rw [hhistory]
    exact h.once
  · rw [hhistory, hdownloads, hcurrent, hdownloading]
    exact h.upTo
  · rw [Indexed, EachEntry, hdownloads]
    exact h.indexed
  · rw [hdownloads, hcurrent]
    exact h.incomplete
  · rw [hdownloads, hcurrent]
    exact h.within

/-- An effect that is no report. -/
theorem Tallied.emit (h : s.Tallied) (hnone : effect.outcomeIndex = none)
    (hstarted : effect ≠ .started) (hfinished : .finished ≠ effect) : (s.emit effect).Tallied where
  once := h.once.concat fun i hi ↦ by cases hnone.symm.trans hi
  upTo hne := by
    obtain ⟨during, hsuffix, hnot, hreported, hiff⟩ :=
      (h.upTo hne).concat effect hstarted (by rw [hnone]; exact List.append_nil _)
    exact ⟨during, hsuffix, hnot, hreported, hiff.trans (or_iff_left hfinished)⟩
  indexed := h.indexed
  incomplete := h.incomplete
  within := h.within

theorem Tallied.track (h : s.Tallied) (fileIndex : ℕ) : (s.track fileIndex).Tallied where
  once := h.once
  upTo hne := h.upTo fun hnil ↦ hne (by rw [CliprdrFile.track, hnil, List.modify_nil])
  indexed i entry' hentry' := by
    obtain ⟨entry, hentry, heq, -⟩ := getElem?_track hentry'
    rw [heq]
    exact h.indexed i entry hentry
  incomplete i entry' hentry' hle := by
    obtain ⟨entry, hentry, heq, -⟩ := getElem?_track hentry'
    rw [heq]
    exact h.incomplete i entry hentry hle
  within := by
    rw [CliprdrFile.track, List.length_modify]
    exact h.within

/-- **Asking for contents** is no report. -/
theorem Tallied.send (h : s.Tallied) (fileIndex : ℕ) (kind : ContentsKind) (offset : UInt64)
    (cbRequested : UInt32) (accepted : Bool) :
    (s.sendFileContentsRequest fileIndex kind offset cbRequested accepted).2.Tallied := by
  obtain hsend | ⟨request, -, hsend⟩ :=
    sendFileContentsRequest_cases s fileIndex kind offset cbRequested accepted
  · rw [hsend]
    exact h
  · rw [hsend]
    have htracked : (s.tracked fileIndex request accepted).Tallied :=
      (h.track fileIndex).emit rfl nofun nofun
    cases accepted with
    | false => exact htracked
    | true => exact htracked.of_eq rfl rfl rfl rfl

/-- **Passing an entry**: it is reported. -/
theorem Tallied.pass (h : s.Tallied) (hne : s.downloads ≠ [])
    (hreport : effect.outcomeIndex = some s.current) (hhistory : t.history = s.history ++ [effect])
    (hcurrent : t.current = s.current + 1) (hlength : t.downloads.length = s.downloads.length)
    (hdownloading : t.downloading = s.downloading) (hindexed : t.Indexed)
    (hothers : ∀ i, i ≠ s.current → t.downloads[i]? = s.downloads[i]?)
    (hlt : s.current < s.downloads.length) : t.Tallied where
  once := by
    rw [hhistory]
    refine h.once.concat fun i hi ↦ ?_
    obtain rfl := Option.some.inj (hreport.symm.trans hi)
    exact ⟨_, h.upTo hne⟩
  upTo _ := by
    rw [hhistory, hcurrent, hdownloading]
    obtain ⟨during, hsuffix, hnot, hreported, hiff⟩ :=
      (h.upTo hne).concat effect (fun heq ↦ by rw [heq] at hreport; cases hreport)
        (by rw [hreport, List.range_succ]; rfl)
    refine ⟨during, hsuffix, hnot, hreported, hiff.trans (or_iff_left fun heq ↦ ?_)⟩
    rw [← heq] at hreport
    cases hreport
  indexed := hindexed
  incomplete i entry hentry hle := by
    rw [hcurrent] at hle
    exact h.incomplete i entry ((hothers i (by omega)).symm.trans hentry) (by omega)
  within := by
    rw [hcurrent, hlength]
    exact hlt

/-- The queue is finished. -/
theorem Paused.finish (h : s.Paused) (hlength : s.downloads.length ≤ s.current) :
    s.finish.Tended where
  tallied := by
    refine ⟨h.tallied.once.concat fun i hi ↦ (by cases hi),
      fun hne ↦ ?_, h.tallied.indexed, h.tallied.incomplete, h.tallied.within⟩
    obtain ⟨during, hsuffix, hnot, hreported, hiff⟩ :=
      (h.tallied.upTo hne).concat .finished nofun (List.append_nil _)
    exact ⟨during, hsuffix, hnot, hreported,
      hiff.trans (iff_of_true (.inr rfl) rfl)⟩
  ids := by
    refine SameIds.ids ?_ h.ids
    exact ⟨rfl, rfl, rfl, sentRequests_concat _ _⟩
  asked := h.unasked.asked
  finished _ := Nat.le_antisymm h.tallied.within hlength

theorem Tallied.indexed_set (h : s.Tallied) {entry entry' : DownloadEntry}
    (hentry : s.downloads[s.current]? = some entry) (hindex : entry'.fileIndex = entry.fileIndex)
    (hdownloads : t.downloads = s.downloads.set s.current entry') : t.Indexed := by
  have hset : (s.setEntry s.current entry').Indexed := by
    refine EachEntry.set h.indexed ?_ rfl
    exact hindex.trans (h.indexed _ _ hentry)
  exact hset.of_downloads_eq hdownloads

variable (effect) in
/-- The entry under the cursor is completed in its place, reported and passed. -/
theorem Paused.pass_set (h : s.Paused) {entry entry' : DownloadEntry}
    (hentry : s.downloads[s.current]? = some entry)
    (hdownloads : t.downloads = s.downloads.set s.current entry')
    (hindex : entry'.fileIndex = entry.fileIndex) (hstreamId : entry'.streamId = entry.streamId)
    (hreport : effect.outcomeIndex = some s.current) (hrequest : effect.isRequest = false)
    (hhistory : t.history = s.history ++ [effect]) (hcurrent : t.current = s.current + 1)
    (hnext : t.nextStreamId = s.nextStreamId) (hrequests : t.requests = s.requests)
    (hdownloading : t.downloading = s.downloading) : t.Paused := by
  obtain ⟨hlt, -⟩ := List.getElem?_eq_some_iff.1 hentry
  have hsame : SameIds s t := by
    refine ⟨hnext, hrequests, ?_, ?_⟩
    · rw [entryIds, hdownloads]
      exact map_set_of_eq hentry hstreamId
    · rw [hhistory, sentRequests_concat, hrequest]
      rfl
  refine ⟨?_, hsame.ids h.ids, hsame.unasked h.unasked, hdownloading.trans h.downloading⟩
  refine h.tallied.pass (List.ne_nil_of_length_pos (by omega)) hreport hhistory hcurrent ?_
    hdownloading (h.tallied.indexed_set hentry hindex hdownloads) (fun i hi ↦ ?_) hlt
  · rw [hdownloads, List.length_set]
  · rw [hdownloads]
    exact List.getElem?_set_ne (Ne.symm hi)

/-- The entry under the cursor is changed, and not passed. -/
theorem Paused.setEntry (h : s.Paused) {entry entry' : DownloadEntry}
    (hentry : s.downloads[s.current]? = some entry) (hindex : entry'.fileIndex = entry.fileIndex)
    (hstreamId : entry'.streamId = entry.streamId) (hcomplete : entry'.complete = entry.complete) :
    (s.setEntry s.current entry').Paused := by
  obtain ⟨hlt, -⟩ := List.getElem?_eq_some_iff.1 hentry
  have hsame : SameIds s (s.setEntry s.current entry') :=
    ⟨rfl, rfl, map_set_of_eq hentry hstreamId, rfl⟩
  refine ⟨⟨h.tallied.once, fun _ ↦ ?_, h.tallied.indexed_set hentry hindex rfl,
    fun i entry₁ hentry₁ hle ↦ ?_, ?_⟩, hsame.ids h.ids, hsame.unasked h.unasked, h.downloading⟩
  · exact h.tallied.upTo (List.ne_nil_of_length_pos (by omega))
  · change (s.downloads.set s.current entry')[i]? = some entry₁ at hentry₁
    by_cases hi : i = s.current
    · subst hi
      rw [List.getElem?_set_self hlt] at hentry₁
      rw [← Option.some.inj hentry₁, hcomplete]
      exact h.tallied.incomplete _ _ hentry (Nat.le_refl _)
    · rw [List.getElem?_set_ne (Ne.symm hi)] at hentry₁
      exact h.tallied.incomplete i entry₁ hentry₁ hle
  · show s.current ≤ (s.downloads.set s.current entry').length
    rw [List.length_set]
    exact h.tallied.within

theorem Paused.emit (h : s.Paused) (hrequest : effect.isRequest = false)
    (hnone : effect.outcomeIndex = none) (hstarted : effect ≠ .started)
    (hfinished : .finished ≠ effect) : (s.emit effect).Paused where
  tallied := h.tallied.emit hnone hstarted hfinished
  ids := (sameIds_emit s hrequest).ids h.ids
  unasked := h.unasked
  downloading := h.downloading

/-! ### The loop -/

/-- The entry under the cursor is given up. -/
theorem Paused.giveUp (h : s.Paused) {entry : DownloadEntry}
    (hentry : s.downloads[s.current]? = some entry) : (s.giveUp s.current).advance.Paused := by
  have hset : (s.giveUp s.current).advance.downloads =
      s.downloads.set s.current { entry with complete := true } := by
    show s.downloads.modify s.current _ = _
    rw [List.modify_eq_set_getElem?, hentry]
    rfl
  exact h.pass_set (.error s.current sizeRequestFailed) hentry hset rfl rfl rfl rfl rfl rfl rfl rfl
    rfl

/-- **The size of the entry under the cursor cannot be asked for**: the entry is given up, with a
new identifier that no request has. -/
theorem Paused.refused (h : s.Paused) {entry : DownloadEntry} {accepted : Bool} {n : ℕ}
    (hentry : s.downloads[s.current]? = some entry) (hn : s.downloads.length ≤ s.current + (n + 1))
    (hsend : s.sendFileContentsRequest s.current .size 0 8 accepted = (false, t))
    (hsent : sentRequests t.history < 2 ^ 31) :
    (t.giveUp s.current).advance.Paused ∧
      (t.giveUp s.current).advance.downloads.length ≤ (t.giveUp s.current).advance.current + n := by
  have hfailed : (s.sendFileContentsRequest s.current .size 0 8 accepted).1 = false := by rw [hsend]
  have ht : (s.sendFileContentsRequest s.current .size 0 8 accepted).2 = t := by rw [hsend]
  have hqueue := sameQueue_send s s.current .size 0 8 accepted
  have hpaused : (s.sendFileContentsRequest s.current .size 0 8 accepted).2.Paused := by
    rw [← ht] at hsent
    exact ⟨h.tallied.send _ _ _ _ _, ids_send h.ids hsent,
      unasked_send h.ids h.unasked hsent hfailed, hqueue.downloading.trans h.downloading⟩
  rw [ht] at hqueue hpaused
  have hlength := congrArg List.length hqueue.flags
  rw [flags, flags, List.length_map, List.length_map] at hlength
  obtain ⟨hlt, -⟩ := List.getElem?_eq_some_iff.1 hentry
  constructor
  · rw [← hqueue.current]
    exact hpaused.giveUp (List.getElem?_eq_getElem (by rw [hlength, hqueue.current]; exact hlt))
  · show (t.downloads.modify t.current _).length ≤ t.current + 1 + n
    rw [List.length_modify, hlength, hqueue.current]
    omega

/-- **The loop** leads from a state in which no request is for an entry to one between two calls. -/
theorem tended_startNext (accepts : ℕ → Bool) (n : ℕ) (h : s.Paused)
    (hn : s.downloads.length ≤ s.current + n)
    (hsent : sentRequests (startNext accepts n s).history < 2 ^ 31) :
    (startNext accepts n s).Tended := by
  induction n generalizing s with
  | zero => exact h.finish hn
  | succ n ih =>
    rw [startNext] at hsent ⊢
    cases hentry : s.downloads[s.current]? with
    | none => exact h.finish (List.getElem?_eq_none_iff.1 hentry)
    | some entry =>
      have hindex : entry.fileIndex = s.current := h.tallied.indexed _ _ hentry
      rw [hentry] at hsent
      dsimp only at hsent ⊢
      rw [h.tallied.incomplete _ _ hentry (Nat.le_refl _), if_neg Bool.false_ne_true] at hsent ⊢
      split at hsent
      case isTrue hdirectory =>
        -- a directory
        rw [if_pos hdirectory]
        refine ih ?_ ?_ hsent
        · exact h.pass_set (.done entry.fileIndex _ _ _ _ _) hentry rfl rfl rfl
            (congrArg some hindex) rfl rfl rfl rfl rfl rfl
        · show (s.downloads.set s.current _).length ≤ s.current + 1 + n
          rw [List.length_set]
          omega
      case isFalse hdirectory =>
        rw [if_neg hdirectory, hindex]
        rw [hindex] at hsent
        have hsend (kind : ContentsKind) (offset : UInt64) (cbRequested : UInt32)
            (accepted : Bool) := h.tallied.send s.current kind offset cbRequested accepted
        split at hsent
        case isTrue hsize =>
          -- a file whose size is not known yet
          rw [if_pos hsize]
          have hqueue := sameQueue_send s s.current .size 0 8 (accepts s.current)
          split at hsent
          case isTrue hsentNow =>
            rw [if_pos hsentNow]
            refine ⟨hsend _ _ _ _, ids_send h.ids hsent, ?_, fun hfalse ↦ ?_⟩
            · exact asked_send h.ids h.unasked hsent rfl hentry ((Bool.not_eq_true' _).mp hsize)
            · cases (hqueue.downloading.symm.trans hfalse).symm.trans h.downloading
          case isFalse hfailed =>
            rw [if_neg hfailed]
            rw [Bool.not_eq_true] at hfailed
            have hbefore : sentRequests (s.sendFileContentsRequest s.current .size 0 8
                (accepts s.current)).2.history < 2 ^ 31 := by
              refine Nat.lt_of_le_of_lt (sentRequests_mono ?_) hsent
              refine List.IsPrefix.trans ?_ (history_startNext _ _ _)
              exact List.prefix_append _ _
            obtain ⟨hpaused, hle⟩ := h.refused hentry hn (Prod.ext hfailed rfl) hbefore
            exact ih hpaused hle hsent
        case isFalse hsize =>
          -- a file that is open
          rw [if_neg hsize]
          have hqueue := sameQueue_send s s.current .range entry.bytesReceived (firstChunk entry)
            (accepts s.current)
          refine ⟨hsend _ _ _ _, ids_send h.ids hsent, ?_, fun hfalse ↦ ?_⟩
          · refine asked_send h.ids h.unasked hsent rfl hentry ⟨?_, rfl⟩
            simpa using hsize
          · cases (hqueue.downloading.symm.trans hfalse).symm.trans h.downloading

theorem Paused.startNextDownload (h : s.Paused) (accepts : ℕ → Bool)
    (hsent : sentRequests (s.startNextDownload accepts).history < 2 ^ 31) :
    (s.startNextDownload accepts).Tended :=
  tended_startNext accepts _ h (by omega) hsent

/-! ### Answers -/

/-- **The end of the entry under the cursor.** -/
theorem Paused.finishEntry (h : s.Paused) {entry entry' : DownloadEntry} {accepts : ℕ → Bool}
    {report : CliprdrFile → CliprdrFile} (hentry : s.downloads[s.current]? = some entry)
    (hindex : entry'.fileIndex = entry.fileIndex) (hstreamId : entry'.streamId = entry.streamId)
    (hreport : ∀ u : CliprdrFile, ∃ effect : FileEffect, report u = u.emit effect ∧
      effect.outcomeIndex = some s.current ∧ effect.isRequest = false)
    (hsent : sentRequests (s.finishEntry s.current entry' report accepts).history < 2 ^ 31) :
    (s.finishEntry s.current entry' report accepts).Tended := by
  obtain ⟨effect, heq, hindices, hrequest⟩ :=
    hreport (s.setEntry s.current { entry' with complete := true })
  rw [CliprdrFile.finishEntry, heq] at hsent ⊢
  refine Paused.startNextDownload ?_ accepts hsent
  exact h.pass_set effect hentry rfl hindex hstreamId hindices hrequest rfl rfl rfl rfl rfl

/-- `Paused` does not look at the files. -/
theorem Paused.writeFile (h : s.Paused) (path : Path) (contents : List UInt8) :
    (s.writeFile path contents).Paused := by
  have hsame : SameIds s (s.writeFile path contents) := ⟨rfl, rfl, rfl, rfl⟩
  exact ⟨h.tallied.of_eq rfl rfl rfl rfl, hsame.ids h.ids, hsame.unasked h.unasked, h.downloading⟩

theorem tended_receiveSize (h : s.Paused) {entry : DownloadEntry} {size : UInt64}
    {surroundings : Surroundings} (hentry : s.downloads[s.current]? = some entry)
    (hsent : sentRequests (s.receiveSize s.current entry size surroundings).history < 2 ^ 31) :
    (s.receiveSize s.current entry size surroundings).Tended := by
  have hindex : entry.fileIndex = s.current := h.tallied.indexed _ _ hentry
  have hwrite := h.writeFile entry.tempPath []
  rw [receiveSize] at hsent ⊢
  split at hsent
  case isTrue hzero =>
    rw [if_pos hzero]
    have hreport (v : CliprdrFile) : ∃ effect : FileEffect,
        v.emitDone s.current { entry with totalSize := size, sizeReceived := true } 0 =
            v.emit effect ∧
          effect.outcomeIndex = some s.current ∧ effect.isRequest = false :=
      ⟨_, rfl, congrArg some hindex, rfl⟩
    by_cases hopens : surroundings.opens = true
    · rw [if_pos hopens] at hsent ⊢
      exact hwrite.finishEntry hentry rfl rfl hreport hsent
    · rw [if_neg hopens] at hsent ⊢
      exact h.finishEntry hentry rfl rfl hreport hsent
  case isFalse hzero =>
    rw [if_neg hzero]
    split at hsent
    case isTrue hopens =>
      rw [if_pos hopens]
      refine Paused.startNextDownload ?_ _ hsent
      exact hwrite.setEntry hentry rfl rfl rfl
    case isFalse hopens =>
      rw [if_neg hopens]
      exact h.finishEntry hentry rfl rfl (fun v ↦ ⟨_, rfl, congrArg some hindex, rfl⟩) hsent

theorem tended_receiveRange (h : s.Paused) {entry : DownloadEntry} {data : List UInt8}
    {surroundings : Surroundings} (hentry : s.downloads[s.current]? = some entry)
    (hsize : entry.sizeReceived = true)
    (hsent : sentRequests (s.receiveRange s.current entry data surroundings).history < 2 ^ 31) :
    (s.receiveRange s.current entry data surroundings).Tended := by
  have hindex : entry.fileIndex = s.current := h.tallied.indexed _ _ hentry
  obtain ⟨hlt, -⟩ := List.getElem?_eq_some_iff.1 hentry
  rw [receiveRange] at hsent ⊢
  dsimp only at hsent ⊢
  have hprogress (path : Path) (contents : List UInt8) (bytes : UInt64) (files : ℕ) :
      ((s.writeFile path contents).emit (.progress entry.fileIndex bytes entry.totalSize
        files)).Paused :=
    (h.writeFile path contents).emit rfl rfl (fun heq ↦ by cases heq) fun heq ↦ by cases heq
  split at hsent
  case isTrue hlast =>
    rw [if_pos hlast]
    exact (hprogress _ _ _ _).finishEntry hentry rfl rfl
      (fun v ↦ ⟨_, rfl, congrArg some hindex, rfl⟩) hsent
  case isFalse hlast =>
    rw [if_neg hlast]
    have hset (contents : List UInt8) (bytes : UInt64) (files : ℕ) :
        (((s.writeFile entry.tempPath contents).emit (.progress entry.fileIndex bytes
          entry.totalSize files)).setEntry s.current
            (received entry data surroundings.writes)).Paused :=
      (hprogress _ contents bytes files).setEntry hentry rfl rfl rfl
    refine ⟨(hset _ _ _).tallied.send _ _ _ _ _, ids_send (hset _ _ _).ids hsent, ?_,
      fun hfalse ↦ ?_⟩
    · exact asked_send (hset _ _ _).ids (hset _ _ _).unasked hsent hindex
        (List.getElem?_set_self hlt) ⟨hsize, rfl⟩
    · have hdownloading := (sameQueue_send _ _ _ _ _ _).downloading.symm.trans hfalse
      cases hdownloading.symm.trans h.downloading

theorem tended_receive (h : s.Paused) {entry : DownloadEntry} {response : ContentsResponse}
    {surroundings : Surroundings} (hentry : s.downloads[s.current]? = some entry)
    (hsent : sentRequests (s.receive s.current entry response surroundings).history < 2 ^ 31) :
    (s.receive s.current entry response surroundings).Tended := by
  have hindex : entry.fileIndex = s.current := h.tallied.indexed _ _ hentry
  rw [receive] at hsent ⊢
  split at hsent
  case isTrue hfailed =>
    rw [if_pos hfailed]
    exact h.finishEntry hentry rfl rfl (fun v ↦ ⟨_, rfl, congrArg some hindex, rfl⟩) hsent
  case isFalse hok =>
    rw [if_neg hok]
    split at hsent
    case isTrue hsize =>
      rw [if_pos hsize]
      exact tended_receiveSize h hentry hsent
    case isFalse hsize =>
      rw [if_neg hsize]
      split
      · exact h.tended
      · exact h.tended
      · next data hne hdata =>
        rw [hdata] at hsent
        split at hsent
        case h_1 _ heq => cases heq
        case h_2 _ heq => exact absurd (Option.some.inj heq) hne
        case h_3 _ data' _ heq =>
        obtain rfl := Option.some.inj heq
        split at hsent
        case isTrue hfp =>
          rw [if_pos hfp]
          exact tended_receiveRange h hentry (by simpa using hsize) hsent
        case isFalse hfp =>
          rw [if_neg hfp]
          exact h.tended

/-- Forgetting a request. -/
theorem Tended.eraseIdx (h : s.Tended) (k : ℕ) :
    Tended { s with requests := s.requests.eraseIdx k } where
  tallied := h.tallied.of_eq rfl rfl rfl rfl
  ids := ⟨h.ids.next, fun r hr ↦ h.ids.requested r (List.mem_of_mem_eraseIdx hr),
    h.ids.distinct.sublist ((List.eraseIdx_sublist _ k).map _), h.ids.entries⟩
  asked r hr := h.asked r (List.mem_of_mem_eraseIdx hr)
  finished := h.finished

/-- **When the request for an entry is answered**, no request is for an entry. -/
theorem Tended.paused_eraseIdx (h : s.Tended) {k : ℕ} {request : ContentsRequest}
    (hrequest : s.requests[k]? = some request) {i : ℕ} {entry : DownloadEntry}
    (hentry : s.downloads[i]? = some entry) (heq : entry.streamId = request.streamId)
    (hdownloading : s.downloading = true) :
    Paused { s with requests := s.requests.eraseIdx k } := by
  have herased := h.eraseIdx k
  refine ⟨herased.tallied, herased.ids, fun r hr hmem ↦ ?_, hdownloading⟩
  obtain ⟨j, entry', hentry', heq'⟩ := mem_entryIds_iff.1 hmem
  obtain ⟨rfl, -⟩ := h.asked request (List.mem_of_getElem? hrequest) i entry hentry heq
  obtain ⟨rfl, -⟩ := h.asked r (List.mem_of_mem_eraseIdx hr) j entry' hentry' heq'
  obtain rfl := Option.some.inj (hentry.symm.trans hentry')
  exact h.ids.streamId_ne_of_mem_eraseIdx hrequest hr (heq'.symm.trans heq)

/-- **One answer**, whatever it says. -/
theorem Tended.fileContentsResponse (h : s.Tended) {k : ℕ} {request : ContentsRequest}
    (hrequest : s.requests[k]? = some request) {ok : Bool} {data : Option (List UInt8)}
    {surroundings : Surroundings}
    (hsent : sentRequests ({ s with requests := s.requests.eraseIdx k }.fileContentsResponse
      ⟨request.streamId, ok, data⟩ surroundings).history < 2 ^ 31) :
    Tended ({ s with requests := s.requests.eraseIdx k }.fileContentsResponse
      ⟨request.streamId, ok, data⟩ surroundings) := by
  rw [CliprdrFile.fileContentsResponse] at hsent ⊢
  split at hsent
  case isTrue hstop =>
    rw [if_pos hstop]
    exact h.eraseIdx k
  case isFalse hgo =>
    rw [if_neg hgo]
    split at hsent
    · exact h.eraseIdx k
    · next i entry hentryOf =>
      have hentry : s.downloads[i]? = some entry := entryOf_getElem? hentryOf
      have heq := entryOf_streamId hentryOf
      have hdownloading : s.downloading = true := by
        simp only [Bool.or_eq_true, not_or, Bool.not_eq_true', Bool.not_eq_false] at hgo
        exact hgo.1
      have hpaused := h.paused_eraseIdx hrequest hentry heq hdownloading
      obtain ⟨rfl, -⟩ := h.asked request (List.mem_of_getElem? hrequest) i entry hentry heq
      exact tended_receive hpaused hentry hsent

/-! ### Calls -/

/-- Between two calls, without a download. -/
theorem Tended.of_downloads_eq_nil (h : s.Tended) (hdownloads : t.downloads = [])
    (hcurrent : t.current = 0) (hhistory : t.history = s.history)
    (hnext : t.nextStreamId = s.nextStreamId) (hrequests : t.requests = s.requests) :
    t.Tended where
  tallied := by
    refine ⟨?_, fun hne ↦ absurd hdownloads hne, EachEntry.of_nil hdownloads, ?_, ?_⟩
    · rw [hhistory]
      exact h.tallied.once
    · rw [hdownloads]
      simp
    · rw [hcurrent]
      exact Nat.zero_le _
  ids := by
    refine ⟨?_, ?_, ?_, ?_⟩
    · rw [hhistory, hnext]
      exact h.ids.next
    · rw [hhistory, hrequests]
      exact h.ids.requested
    · rw [hrequests]
      exact h.ids.distinct
    · rw [entryIds, hdownloads]
      exact fun id hid ↦ absurd hid List.not_mem_nil
  asked := by
    rw [Asked, hdownloads]
    exact fun r _ i entry hentry ↦ by cases hentry
  finished _ := by
    rw [hcurrent, hdownloads]
    rfl

/-- **A download begins**: nothing has been asked for. -/
theorem Tended.paused_started (h : s.Tended) (tempDir : Path) (descriptors : List FileDescriptor) :
    Paused ({ s.freeDownloads with
      downloads := newDownloads tempDir descriptors
      downloading := true }.emit .started) := by
  have hsent : sentRequests (s.history ++ [.started]) = sentRequests s.history :=
    sentRequests_concat _ _
  refine ⟨⟨?_, fun _ ↦ ?_, ?_, ?_, Nat.zero_le _⟩, ⟨?_, ?_, h.ids.distinct, ?_⟩, ?_, rfl⟩
  · exact h.tallied.once.concat fun i hi ↦ by cases hi
  · obtain ⟨during, hsuffix, hnot, hreported, hiff⟩ := reportedUpTo_started s.history
    exact ⟨during, hsuffix, hnot, hreported, hiff.trans (iff_of_false id nofun)⟩
  · exact fun i entry hentry ↦ (getElem?_newDownloads hentry).1
  · exact fun i entry hentry _ ↦ (getElem?_newDownloads hentry).2.2.complete
  · show sentRequests (s.history ++ [.started]) + 1 < 2 ^ 31 →
      s.nextStreamId.toNat = sentRequests (s.history ++ [.started]) + 1
    rw [hsent]
    exact h.ids.next
  · show ∀ r ∈ s.requests, _ ∧ _ ≤ sentRequests (s.history ++ [.started])
    rw [hsent]
    exact h.ids.requested
  · intro id hid
    obtain ⟨i, entry, hentry, rfl⟩ := mem_entryIds_iff.1 hid
    rw [(getElem?_newDownloads hentry).2.1]
    exact Nat.zero_le _
  · intro r hr hid
    obtain ⟨i, entry, hentry, heq⟩ := mem_entryIds_iff.1 hid
    have hpos := (h.ids.requested r hr).1
    rw [← heq, (getElem?_newDownloads hentry).2.1] at hpos
    exact absurd hpos (Nat.lt_irrefl 0)

theorem Tended.requestDownload (h : s.Tended) (tempDir : Path) (accepts : ℕ → Bool)
    (hsent : sentRequests (s.requestDownload tempDir accepts).history < 2 ^ 31) :
    (s.requestDownload tempDir accepts).Tended := by
  rw [CliprdrFile.requestDownload] at hsent ⊢
  split at hsent
  case isTrue hstop =>
    rw [if_pos hstop]
    exact h
  case isFalse hgo =>
    rw [if_neg hgo]
    exact (h.paused_started tempDir s.descriptors).startNextDownload accepts hsent

end CliprdrFile

open CliprdrFile

variable {parseFileList : List UInt8 → List FileDescriptor}

/-- **One call.** -/
theorem Clipboard.tended_call {s : Clipboard} (call : ClipboardCall) (h : s.file.Tended)
    (hsent : sentRequests (s.call parseFileList call).file.history < 2 ^ 31) :
    (s.call parseFileList call).file.Tended := by
  cases call with
  | channelConnected =>
    have hsame : SameIds s.file s.file.channelConnected := ⟨rfl, rfl, rfl, rfl⟩
    exact ⟨h.tallied.of_eq rfl rfl rfl rfl, hsame.ids h.ids, h.asked, h.finished⟩
  | channelDisconnected => exact h.of_downloads_eq_nil rfl rfl rfl rfl rfl
  | monitorReady => exact h
  | formatList formats acknowledged sent =>
    rw [Clipboard.call]
    dsimp only
    split
    · exact h.of_downloads_eq_nil rfl rfl rfl rfl rfl
    · exact h
  | dataResponse response =>
    rw [Clipboard.call]
    dsimp only
    split
    · next data _ =>
      have hsame : SameIds s.file (s.file.handleFgdResponse (parseFileList data)) :=
        ⟨rfl, rfl, rfl, rfl⟩
      exact ⟨h.tallied.of_eq rfl rfl rfl rfl, hsame.ids h.ids, h.asked, h.finished⟩
    · exact h
  | requestDownload tempDir accepts => exact h.requestDownload tempDir accepts hsent

/-! ### Runs -/

theorem tended_init : Tended {} where
  tallied := by
    refine ⟨fun during hinfix _ ↦ ?_, fun hne ↦ absurd rfl hne, nofun, nofun, Nat.le_refl 0⟩
    cases List.eq_nil_of_infix_nil hinfix
  ids := ⟨fun _ ↦ rfl, nofun, List.Pairwise.nil, nofun⟩
  asked := nofun
  finished _ := rfl

/-- **One step**, as long as stream identifiers are new. -/
theorem tended_step {s t : Clipboard} {action : FailingAction} (h : s.file.Tended)
    (hstep : (failingSystem parseFileList).step s action = some t)
    (hsent : sentRequests t.file.history < 2 ^ 31) : t.file.Tended := by
  cases action with
  | call call =>
    obtain rfl := Option.some.inj hstep
    exact Clipboard.tended_call call h hsent
  | answer k ok data surroundings =>
    obtain ⟨request, hrequest, rfl⟩ := Option.map_eq_some_iff.1 hstep
    exact h.fileContentsResponse hrequest hsent

/-- Histories only grow. -/
theorem history_failingStep {s t : Clipboard} {action : FailingAction}
    (hstep : (failingSystem parseFileList).step s action = some t) :
    s.file.history <+: t.file.history := by
  cases action with
  | call call =>
    obtain rfl := Option.some.inj hstep
    exact Clipboard.history_call call
  | answer k ok data surroundings =>
    obtain ⟨request, -, rfl⟩ := Option.map_eq_some_iff.1 hstep
    refine List.IsPrefix.trans ?_ history_fileContentsResponse
    exact List.prefix_rfl

/-- What a run keeps. -/
theorem tended_run {actions : List FailingAction} {t : Clipboard}
    (hrun : (failingSystem parseFileList).run {} actions = some t) :
    sentRequests t.file.history < 2 ^ 31 → t.file.Tended := by
  refine StepSystem.run_invariant
    (P := fun s : Clipboard ↦ sentRequests s.file.history < 2 ^ 31 → s.file.Tended)
    (fun s action u h hstep hu ↦ ?_) (fun _ ↦ tended_init) hrun
  -- fewer requests had been sent before
  have hs := Nat.lt_of_le_of_lt (sentRequests_mono (history_failingStep hstep)) hu
  exact tended_step (h hs) hstep hu

/-- **Every file of a download is reported once.** In every run in which fewer than `2 ^ 31`
requests are sent and each is answered at most once, whatever the answers are and whatever fails,
each download reports its files from the first on, each exactly once, as done or as failed. What the
last one has reported lies below the cursor, and when it is finished, this is everything. -/
theorem files_accounted (parseFileList : List UInt8 → List FileDescriptor)
    (actions : List FailingAction) (t : Clipboard)
    (hrun : (failingSystem parseFileList).run {} actions = some t)
    (hsent : sentRequests t.file.history < 2 ^ 31) :
    ReportedOnce t.file.history ∧
      (t.file.downloads ≠ [] →
        ReportedUpTo t.file.history t.file.current (t.file.downloading = false)) ∧
      (t.file.downloading = false → t.file.current = t.file.downloads.length) := by
  have h : t.file.Tended := tended_run hrun hsent
  exact ⟨h.tallied.once, h.tallied.upTo, h.finished⟩

/-- The size of the first file is refused, the second cannot be opened, the third is empty and
cannot be created; the request for the size of the fourth fails, and of the fifth less is written
than has arrived. -/
def misfortunes : List FailingAction :=
  [.call .channelConnected,
    .call (.formatList [⟨49270, some "FileGroupDescriptorW"⟩] true true),
    .call (.dataResponse ⟨true, some [5]⟩),
    .call (.requestDownload [0x74] fun i ↦ i != 3),
    .answer 0 false none ⟨fun i ↦ i != 3, true, 0⟩,
    .answer 0 true (some [9, 0, 0, 0]) ⟨fun i ↦ i != 3, false, 0⟩,
    .answer 0 true (some []) ⟨fun i ↦ i != 3, false, 0⟩,
    .answer 0 true (some [2, 0, 0, 0, 0, 0, 0, 0]) ⟨fun _ ↦ true, true, 0⟩,
    .answer 0 true (some [7, 8]) ⟨fun _ ↦ true, true, 1⟩,
    .answer 0 true (some [8]) ⟨fun _ ↦ true, true, 1⟩]

theorem files_accounted_misfortunes :
    ∃ t, (failingSystem fun _ ↦ List.replicate 5 ⟨0, some [0x61]⟩).run {} misfortunes = some t ∧
      doneIndices t.file.history = [2, 4] ∧ outcomeIndices t.file.history = [0, 1, 2, 3, 4] ∧
      t.file.downloading = false ∧
      ReportedOnce t.file.history ∧
      (t.file.downloads ≠ [] →
        ReportedUpTo t.file.history t.file.current (t.file.downloading = false)) ∧
      (t.file.downloading = false → t.file.current = t.file.downloads.length) := by
  refine ⟨_, rfl, ?_, ?_, ?_, ?_⟩
  · decide
  · decide
  · decide
  · exact files_accounted (fun _ ↦ List.replicate 5 ⟨0, some [0x61]⟩) misfortunes _ rfl (by decide)

end RdpMcp
