import Mathlib.Data.List.Infix
import RdpMcp.Native.CliprdrFile

/-!
# What a download reports

The history of the file module is read in three ways: which files it has reported as done, and with
what contents (`ReportedExactly`), in which order within one download (`ReportedInOrder`), and how
many requests have been sent. For each there is a lemma on what one more effect does to it.

Histories only grow, so a bound on the number of requests holds of all earlier states of a run.
-/

namespace RdpMcp

/-! ### Reports -/

/-- The effect is a request. -/
def FileEffect.isRequest : FileEffect → Bool
  | request _ _ => true
  | _ => false

/-- The file that is reported as done. -/
def FileEffect.doneIndex : FileEffect → Option ℕ
  | done fileIndex _ _ _ _ _ => some fileIndex
  | _ => none

/-- How many requests have been sent. -/
def sentRequests (history : List FileEffect) : ℕ :=
  history.countP FileEffect.isRequest

/-- The files that are reported as done. -/
def doneIndices (history : List FileEffect) : List ℕ :=
  history.filterMap FileEffect.doneIndex

/-- **Files that are reported as done are exact**, directories apart. -/
def ReportedExactly (contents : ℕ → List UInt8) (history : List FileEffect) : Prop :=
  ∀ i path name size file, .done i false path name size file ∈ history → file = some (contents i)

/-- **Within one download**, files are reported as done in the order of their indices, and each at
most once. -/
def ReportedInOrder (history : List FileEffect) : Prop :=
  ∀ download, download <:+: history → .started ∉ download →
    (doneIndices download).Pairwise (· < ·)

/-- What the download that is going on has reported lies below an index. -/
def ReportedBelow (history : List FileEffect) (n : ℕ) : Prop :=
  ∀ download, download <:+ history → .started ∉ download → ∀ i ∈ doneIndices download, i < n

/-- An effect that may be added when the cursor is at an index: a report is for this index, and it
is right. -/
def FileEffect.RightAt (contents : ℕ → List UInt8) (n : ℕ) : FileEffect → Prop
  | done i isDirectory _ _ _ file => i = n ∧ (isDirectory = false → file = some (contents i))
  | _ => True

variable {contents : ℕ → List UInt8} {history : List FileEffect} {effect : FileEffect} {n m : ℕ}

theorem doneIndices_concat (history : List FileEffect) (effect : FileEffect) :
    doneIndices (history ++ [effect]) = doneIndices history ++ effect.doneIndex.toList := by
  rw [doneIndices, List.filterMap_append]
  cases h : effect.doneIndex with
  | none => simp [doneIndices, h]
  | some i => simp [doneIndices, h]

theorem sentRequests_concat (history : List FileEffect) (effect : FileEffect) :
    sentRequests (history ++ [effect]) =
      sentRequests history + if effect.isRequest then 1 else 0 := by
  rw [sentRequests, List.countP_append, List.countP_singleton]
  rfl

theorem sentRequests_mono {history' : List FileEffect} (h : history <+: history') :
    sentRequests history ≤ sentRequests history' :=
  h.sublist.countP_le

theorem FileEffect.RightAt.eq_of_doneIndex (hright : effect.RightAt contents n) {i : ℕ}
    (h : effect.doneIndex = some i) : i = n := by
  cases effect with
  | done j isDirectory path name size file =>
    obtain rfl := Option.some.inj h
    exact hright.1
  | _ => cases h

theorem FileEffect.rightAt_of_doneIndex (h : effect.doneIndex = none) :
    effect.RightAt contents n := by
  cases effect with
  | done j isDirectory path name size file => cases h
  | _ => trivial

theorem ReportedExactly.concat (h : ReportedExactly contents history)
    (hright : effect.RightAt contents n) : ReportedExactly contents (history ++ [effect]) := by
  intro i path name size file hmem
  rcases List.mem_append.1 hmem with hold | hnew
  · exact h i path name size file hold
  · obtain rfl := List.mem_singleton.1 hnew
    exact hright.2 rfl

theorem ReportedBelow.concat (h : ReportedBelow history n) (hle : n ≤ m)
    (hlt : ∀ i, effect.doneIndex = some i → i < m) : ReportedBelow (history ++ [effect]) m := by
  intro download hsuffix hstarted i hi
  rcases List.suffix_concat_iff.1 hsuffix with rfl | ⟨before, rfl, hbefore⟩
  · cases hi
  · rw [doneIndices_concat, List.mem_append] at hi
    rcases hi with hold | hnew
    · have hstarted' : .started ∉ before := fun hmem ↦ hstarted (List.mem_append_left _ hmem)
      exact Nat.lt_of_lt_of_le (h before hbefore hstarted' i hold) hle
    · exact hlt i (Option.mem_toList.1 hnew)

/-- A download that has just begun has reported nothing. -/
theorem reportedBelow_started (history : List FileEffect) (n : ℕ) :
    ReportedBelow (history ++ [.started]) n := by
  intro download hsuffix hstarted i hi
  rcases List.suffix_concat_iff.1 hsuffix with rfl | ⟨before, rfl, -⟩
  · cases hi
  · exact absurd (List.mem_append_right _ (List.mem_singleton_self _)) hstarted

/-- A report above what has been reported keeps the order. -/
theorem ReportedInOrder.concat (h : ReportedInOrder history)
    (hbelow : ∀ i, effect.doneIndex = some i → ReportedBelow history i) :
    ReportedInOrder (history ++ [effect]) := by
  intro download hinfix hstarted
  rcases List.infix_concat_iff.1 hinfix with hsuffix | hold
  · rcases List.suffix_concat_iff.1 hsuffix with rfl | ⟨before, rfl, hbefore⟩
    · exact List.Pairwise.nil
    · have hstarted' : .started ∉ before := fun hmem ↦ hstarted (List.mem_append_left _ hmem)
      rw [doneIndices_concat, List.pairwise_append]
      refine ⟨h before hbefore.isInfix hstarted', ?_, fun i hi j hj ↦ ?_⟩
      · cases effect.doneIndex <;> simp
      · exact hbelow j (Option.mem_toList.1 hj) before hbefore hstarted' i hi
  · exact h download hold hstarted

namespace CliprdrFile

variable {s : CliprdrFile}

/-! ### Requests -/

/-- A request that is sent, whether it is accepted or not. -/
def tracked (s : CliprdrFile) (fileIndex : ℕ) (request : ContentsRequest) (accepted : Bool) :
    CliprdrFile :=
  (s.track fileIndex).emit (.request request accepted)

/-- What sending a request comes to. -/
theorem sendFileContentsRequest_cases (s : CliprdrFile) (fileIndex : ℕ) (kind : ContentsKind)
    (offset : UInt64) (cbRequested : UInt32) (accepted : Bool) :
    s.sendFileContentsRequest fileIndex kind offset cbRequested accepted = (false, s) ∨
      ∃ request, request = s.contentsRequest fileIndex kind offset cbRequested ∧
        s.sendFileContentsRequest fileIndex kind offset cbRequested accepted =
          (accepted,
            if accepted then
              { s.tracked fileIndex request accepted with requests := s.requests ++ [request] }
            else s.tracked fileIndex request accepted) := by
  rw [sendFileContentsRequest]
  cases s.cliprdr with
  | false => exact .inl rfl
  | true => exact .inr ⟨_, rfl, rfl⟩

/-- **The rule of requests.** What a request that is sent keeps, and the list of requests does not
matter to, holds behind the sending. -/
theorem send_rule {P : CliprdrFile → Prop} (h : P s) {fileIndex : ℕ}
    (htracked : ∀ request accepted, P (s.tracked fileIndex request accepted))
    (hrequests : ∀ t requests, P t → P { t with requests }) (kind : ContentsKind) (offset : UInt64)
    (cbRequested : UInt32) (accepted : Bool) :
    P (s.sendFileContentsRequest fileIndex kind offset cbRequested accepted).2 := by
  obtain hsend | ⟨request, -, hsend⟩ :=
    sendFileContentsRequest_cases s fileIndex kind offset cbRequested accepted
  · rw [hsend]
    exact h
  · rw [hsend]
    cases accepted with
    | false => exact htracked request false
    | true => exact hrequests _ _ (htracked request true)

/-! ### The loop -/

/-- The entry under the cursor is given up, since the request for its size cannot be sent. -/
def giveUp (s : CliprdrFile) (fileIndex : ℕ) : CliprdrFile :=
  { s with
    downloads := s.downloads.modify s.current fun entry ↦ { entry with complete := true }
    }.emit (.error fileIndex sizeRequestFailed)

/-- **The rule of the loop.** What holds of a state and its successor when the queue ends or a
request is sent, and is carried over each entry that is passed, holds of a state and of the state
to which the loop leads. -/
theorem startNext_rule {accepts : ℕ → Bool} {motive : CliprdrFile → CliprdrFile → Prop}
    (finish : ∀ s, motive s s.finish)
    (sent : ∀ s entry kind offset cbRequested, s.downloads[s.current]? = some entry →
      motive s (s.sendFileContentsRequest entry.fileIndex kind offset cbRequested
        (accepts entry.fileIndex)).2)
    (complete : ∀ s t, motive s.advance t → motive s t)
    (directory : ∀ s t entry, s.downloads[s.current]? = some entry →
      motive ((s.setEntry s.current { entry with complete := true }).emitDone
        s.current entry 0).advance t → motive s t)
    (refused : ∀ s t entry, s.downloads[s.current]? = some entry →
      motive ((s.sendFileContentsRequest entry.fileIndex .size 0 8
        (accepts entry.fileIndex)).2.giveUp entry.fileIndex).advance t → motive s t)
    (n : ℕ) (s : CliprdrFile) : motive s (startNext accepts n s) := by
  induction n generalizing s with
  | zero => exact finish s
  | succ n ih =>
    rw [startNext]
    split
    · exact finish s
    · next entry hentry =>
      split
      · exact complete s _ (ih s.advance)
      · split
        · exact directory s _ entry hentry (ih _)
        · split
          · dsimp only
            split
            · exact sent s entry _ _ _ hentry
            · exact refused s _ entry hentry (ih _)
          · exact sent s entry _ _ _ hentry

/-! ### Histories only grow -/

theorem history_send {fileIndex : ℕ} {kind : ContentsKind} {offset : UInt64} {cbRequested : UInt32}
    {accepted : Bool} :
    s.history <+:
      (s.sendFileContentsRequest fileIndex kind offset cbRequested accepted).2.history := by
  obtain h | ⟨request, -, h⟩ :=
    sendFileContentsRequest_cases s fileIndex kind offset cbRequested accepted
  · rw [h]
  · rw [h]
    cases accepted <;> exact List.prefix_append _ _

theorem history_startNext (accepts : ℕ → Bool) (n : ℕ) (s : CliprdrFile) :
    s.history <+: (startNext accepts n s).history := by
  refine startNext_rule (motive := fun s t ↦ s.history <+: t.history) (fun s ↦ ?_)
    (fun s entry _ _ _ _ ↦ ?_) (fun s t h ↦ ?_) (fun s t entry _ h ↦ ?_)
    (fun s t entry _ h ↦ ?_) n s
  · exact List.prefix_append _ _
  · exact history_send
  · exact h
  · exact List.IsPrefix.trans (List.prefix_append _ _) h
  · exact (history_send.trans (List.prefix_append _ _)).trans h

theorem history_startNextDownload (accepts : ℕ → Bool) (s : CliprdrFile) :
    s.history <+: (s.startNextDownload accepts).history :=
  history_startNext accepts _ s

theorem history_finishEntry {i : ℕ} {entry : DownloadEntry} {report : CliprdrFile → CliprdrFile}
    {accepts : ℕ → Bool} (hreport : ∀ u : CliprdrFile, u.history <+: (report u).history) :
    s.history <+: (s.finishEntry i entry report accepts).history := by
  refine List.IsPrefix.trans ?_ (history_startNextDownload accepts _)
  exact hreport (s.setEntry i { entry with complete := true })

theorem history_receive {i : ℕ} {entry : DownloadEntry} {response : ContentsResponse}
    {surroundings : Surroundings} :
    s.history <+: (s.receive i entry response surroundings).history := by
  have hfinish (u : CliprdrFile) (hu : s.history <+: u.history) (entry' : DownloadEntry)
      (effect : CliprdrFile → FileEffect) :
      s.history <+:
        (u.finishEntry i entry' (fun s ↦ s.emit (effect s)) surroundings.accepts).history :=
    hu.trans (history_finishEntry fun v ↦ List.prefix_append _ _)
  rw [receive]
  split
  · exact hfinish s List.prefix_rfl _ _
  · split
    · rw [receiveSize]
      split
      · refine hfinish _ ?_ _ _
        cases surroundings.opens <;> exact List.prefix_rfl
      · split
        · refine List.IsPrefix.trans ?_ (history_startNextDownload _ _)
          exact List.prefix_rfl
        · exact hfinish s List.prefix_rfl _ _
    · split
      · exact List.prefix_rfl
      · exact List.prefix_rfl
      · split
        · rw [receiveRange]
          dsimp only
          split
          · refine hfinish _ ?_ _ _
            exact List.prefix_append _ _
          · refine List.IsPrefix.trans ?_ history_send
            exact List.prefix_append _ _
        · exact List.prefix_rfl

theorem history_fileContentsResponse {response : ContentsResponse} {surroundings : Surroundings} :
    s.history <+: (s.fileContentsResponse response surroundings).history := by
  rw [fileContentsResponse]
  split
  · exact List.prefix_rfl
  · split
    · exact List.prefix_rfl
    · exact history_receive

/-- Without descriptors there is nothing to download. -/
theorem requestDownload_of_descriptors_eq_nil (h : s.descriptors = []) (tempDir : Path)
    (accepts : ℕ → Bool) : s.requestDownload tempDir accepts = s := by
  rw [requestDownload, h]
  exact if_pos (Bool.or_true _)

theorem history_requestDownload {tempDir : Path} {accepts : ℕ → Bool} :
    s.history <+: (s.requestDownload tempDir accepts).history := by
  rw [requestDownload]
  split
  · exact List.prefix_rfl
  · refine List.IsPrefix.trans ?_ (history_startNextDownload accepts _)
    exact List.prefix_append _ _

end CliprdrFile

open CliprdrFile

variable {parseFileList : List UInt8 → List FileDescriptor}

theorem Clipboard.history_call {s : Clipboard} (call : ClipboardCall) :
    s.file.history <+: (s.call parseFileList call).file.history := by
  cases call with
  | formatList formats acknowledged sent =>
    rw [Clipboard.call]
    dsimp only
    split <;> exact List.prefix_rfl
  | dataResponse response =>
    rw [Clipboard.call]
    dsimp only
    split <;> exact List.prefix_rfl
  | requestDownload tempDir accepts => exact history_requestDownload
  | _ => exact List.prefix_rfl

end RdpMcp
