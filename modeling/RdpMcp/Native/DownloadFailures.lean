import RdpMcp.Native.DownloadReports

/-!
# Exact in spite of failures

A server with fixed contents may also refuse to answer, answer at the end of a piece or without any
data; files cannot always be opened, and less may be written than has arrived. What it says when it
answers is so: the eight bytes of the size, or some beginning of the piece that is asked for
(`Truthful`).

Nothing of this makes a copy wrong. A piece that is written in part only is asked for again from
there, and a file that cannot be opened is given up. So **what is reported as done is exact**
(`files_exact`), with one exception: a file whose size is zero is reported as done whether it can be
created or not.
-/

open LittleEndian

namespace RdpMcp

/-- What the server says is so: it is the size of the file, or a beginning of the piece. -/
def ContentsRequest.Truthful (contents : ℕ → List UInt8) (request : ContentsRequest)
    (data : List UInt8) : Prop :=
  match request.kind with
  | .size => data.length = 8 ∧ ofBytes data = (contents request.listIndex).length
  | .range => data <+: (contents request.listIndex).drop request.position

instance (contents : ℕ → List UInt8) (request : ContentsRequest) (data : List UInt8) :
    Decidable (request.Truthful contents data) :=
  match request with
  | ⟨_, _, .size, _, _, _, _, _⟩ => inferInstanceAs (Decidable (_ ∧ _))
  | ⟨_, _, .range, _, _, _, _, _⟩ => inferInstanceAs (Decidable (_ <+: _))

/-- An answer is a failure, or what it says is so. -/
def TruthfulStep (contents : ℕ → List UInt8) (s : Clipboard) : FailingAction → Prop
  | .call _ => True
  | .answer k ok data _ =>
    ok = true → ∀ request ∈ s.file.requests[k]?, request.Truthful contents (data.getD [])

instance (contents : ℕ → List UInt8) (s : Clipboard) (action : FailingAction) :
    Decidable (TruthfulStep contents s action) :=
  match action with
  | .call _ => inferInstanceAs (Decidable True)
  | .answer _ _ _ _ => inferInstanceAs (Decidable (_ → _))

/-- The clipboard with a server that answers every accepted request at most once, with a failure or
with what is so. -/
def truthfulSystem (parseFileList : List UInt8 → List FileDescriptor) (contents : ℕ → List UInt8) :
    StepSystem Clipboard FailingAction where
  step s action :=
    if TruthfulStep contents s action then (failingSystem parseFileList).step s action else none

/-- A file that is reported as done is exact, unless it is empty. -/
def FileEffect.ExactOrEmpty (contents : ℕ → List UInt8) : FileEffect → Prop
  | done i false _ _ _ file => file = some (contents i) ∨ contents i = []
  | _ => True

theorem FileEffect.exactOrEmpty_done {contents : ℕ → List UInt8} {i : ℕ} {isDirectory : Bool}
    {path name : Path} {size : UInt64} {file : Option (List UInt8)}
    (h : file = some (contents i) ∨ contents i = []) :
    (FileEffect.done i isDirectory path name size file).ExactOrEmpty contents := by
  cases isDirectory with
  | false => exact h
  | true => trivial

namespace CliprdrFile

variable {contents : ℕ → List UInt8} {s t : CliprdrFile} {effect : FileEffect}

/-- **The copies**: those that have been reported, and the one under the cursor. -/
structure Copied (contents : ℕ → List UInt8) (s : CliprdrFile) : Prop extends
    Copying contents s where
  reported : ∀ effect ∈ s.history, effect.ExactOrEmpty contents

/-- `Copied` looks at the queue, the files and the history. -/
theorem Copied.of_eq (h : s.Copied contents) (hhistory : t.history = s.history)
    (hdownloads : t.downloads = s.downloads) (hcurrent : t.current = s.current)
    (hfiles : t.files = s.files) : t.Copied contents :=
  ⟨h.toCopying.of_eq hdownloads hcurrent hfiles, hhistory ▸ h.reported⟩

theorem reported_concat (h : ∀ effect ∈ s.history, effect.ExactOrEmpty contents)
    (hright : effect.ExactOrEmpty contents) :
    ∀ effect' ∈ s.history ++ [effect], effect'.ExactOrEmpty contents :=
  List.forall_mem_append.2 ⟨h, List.forall_mem_singleton.2 hright⟩

theorem Copied.emit (h : s.Copied contents) (hright : effect.ExactOrEmpty contents) :
    (s.emit effect).Copied contents :=
  ⟨h.toCopying.of_eq rfl rfl rfl, reported_concat h.reported hright⟩

/-- Asking for contents changes no copy. -/
theorem Copied.send (h : s.Copied contents) (fileIndex : ℕ) (kind : ContentsKind) (offset : UInt64)
    (cbRequested : UInt32) (accepted : Bool) :
    (s.sendFileContentsRequest fileIndex kind offset cbRequested accepted).2.Copied contents := by
  have htracked : (s.track fileIndex).Copied contents := ⟨h.toCopying.track fileIndex, h.reported⟩
  exact send_rule h (fun _ _ ↦ htracked.emit trivial) (fun _ _ h ↦ h.of_eq rfl rfl rfl rfl) kind
    offset cbRequested accepted

variable (effect) in
/-- **Passing an entry**: the next one has not been reached. -/
theorem Copied.pass (h : s.Copied contents) (hright : effect.ExactOrEmpty contents)
    (hhistory : t.history = s.history ++ [effect]) (hcurrent : t.current = s.current + 1)
    (hothers : ∀ i, s.current < i → t.downloads[i]? = s.downloads[i]?) : t.Copied contents :=
  ⟨h.toCopying.pass hcurrent hothers, hhistory ▸ reported_concat h.reported hright⟩

/-- The file under the cursor is open, and more of it has been written. -/
theorem Copied.open_set (h : s.Copied contents) {entry entry' : DownloadEntry}
    (hentry : s.downloads[s.current]? = some entry)
    (hdownloads : t.downloads = s.downloads.set s.current entry')
    (hopened : Opened (contents s.current) (t.files entry'.tempPath) entry')
    (hhistory : t.history = s.history) (hcurrent : t.current = s.current) :
    t.Copied contents :=
  ⟨h.toCopying.open_set hentry hdownloads hopened hcurrent, hhistory ▸ h.reported⟩

/-! ### The loop -/

theorem copied_startNext (accepts : ℕ → Bool) (n : ℕ) (h : s.Copied contents) :
    (startNext accepts n s).Copied contents := by
  have hfinish (u : CliprdrFile) (hu : u.Copied contents) : u.finish.Copied contents := by
    have hemit : (u.emit .finished).Copied contents := hu.emit trivial
    exact hemit.of_eq rfl rfl rfl rfl
  induction n generalizing s with
  | zero => exact hfinish s h
  | succ n ih =>
    rw [startNext]
    cases hentry : s.downloads[s.current]? with
    | none => exact hfinish s h
    | some entry =>
      dsimp only
      split
      · -- it has been passed before
        exact ih ⟨h.toCopying.pass rfl fun _ _ ↦ rfl, h.reported⟩
      · split
        case isTrue hdirectory =>
          -- a directory
          have hright : (FileEffect.done entry.fileIndex
              (s.descriptors[s.current]?.any FileDescriptor.isDirectory) entry.tempPath
              (reportedName s.descriptors[s.current]?) 0
              (s.files entry.tempPath)).ExactOrEmpty contents := by
            rw [hdirectory]
            trivial
          refine ih (h.pass _ hright rfl rfl fun i hi ↦ ?_)
          exact List.getElem?_set_ne (Nat.ne_of_lt hi)
        case isFalse hdirectory =>
          split
          · split
            · exact h.send _ _ _ _ _
            · refine ih ((h.send entry.fileIndex .size 0 8 (accepts entry.fileIndex)).pass
                (.error entry.fileIndex sizeRequestFailed) trivial rfl rfl fun i hi ↦ ?_)
              exact List.getElem?_modify_ne _ _ (Nat.ne_of_lt hi)
          · exact h.send _ _ _ _ _

/-! ### Answers -/

/-- **The end of the entry under the cursor.** -/
theorem Copied.finishEntry (h : s.Copied contents) {entry : DownloadEntry} {accepts : ℕ → Bool}
    {report : CliprdrFile → CliprdrFile} (effect : FileEffect)
    (hright : effect.ExactOrEmpty contents)
    (hreport : report (s.setEntry s.current { entry with complete := true }) =
      (s.setEntry s.current { entry with complete := true }).emit effect) :
    (s.finishEntry s.current entry report accepts).Copied contents := by
  rw [CliprdrFile.finishEntry, hreport]
  refine copied_startNext accepts _ (h.pass effect hright rfl rfl fun i hi ↦ ?_)
  exact List.getElem?_set_ne (Nat.ne_of_lt hi)

/-- **The size of the file under the cursor.** -/
theorem copied_receiveSize (h : s.Copied contents) {entry : DownloadEntry} {size : UInt64}
    {surroundings : Surroundings} (hentry : s.downloads[s.current]? = some entry)
    (hindex : entry.fileIndex = s.current) (hfresh : Fresh entry)
    (hsize : size.toNat = (contents s.current).length) :
    (s.receiveSize s.current entry size surroundings).Copied contents := by
  have hwrite : (s.writeFile entry.tempPath []).Copied contents := by
    refine ⟨⟨h.ahead, fun entry₁ hentry₁ ↦ .inl ?_⟩, h.reported⟩
    obtain rfl := Option.some.inj (hentry.symm.trans hentry₁)
    exact hfresh
  rw [receiveSize]
  split
  case isTrue hzero =>
    -- an empty file, whether it can be created or not
    have hnil : contents s.current = [] := by
      rw [← List.length_eq_zero_iff, ← hsize, hzero]
      rfl
    have hright (flag : Bool) (path name : Path) (file : Option (List UInt8)) :
        (FileEffect.done entry.fileIndex flag path name 0 file).ExactOrEmpty contents :=
      FileEffect.exactOrEmpty_done (.inr (hindex ▸ hnil))
    dsimp only
    split
    · exact hwrite.finishEntry (.done entry.fileIndex _ _ _ _ _) (hright _ _ _ _) rfl
    · exact h.finishEntry (.done entry.fileIndex _ _ _ _ _) (hright _ _ _ _) rfl
  case isFalse hzero =>
    split
    · refine copied_startNext _ _ (h.open_set hentry rfl ?_ rfl rfl)
      exact (hfresh.opened hsize hzero).of_file (Function.update_self _ _ _)
    · exact h.finishEntry (.error entry.fileIndex _) trivial rfl

/-- **A piece of the file under the cursor**, of which a part may be written. -/
theorem copied_receiveRange (h : s.Copied contents) {entry : DownloadEntry} {data : List UInt8}
    {surroundings : Surroundings} (hentry : s.downloads[s.current]? = some entry)
    (hindex : entry.fileIndex = s.current)
    (hopened : Opened (contents s.current) (s.files entry.tempPath) entry)
    (hdata : data <+: (contents s.current).drop entry.bytesReceived.toNat) :
    (s.receiveRange s.current entry data surroundings).Copied contents := by
  -- what is written continues the file, whether it is all or not
  have hwritten : data.take surroundings.writes <+:
      (contents s.current).drop entry.bytesReceived.toNat :=
    (List.take_prefix _ _).trans hdata
  rw [receiveRange]
  dsimp only
  generalize data.take surroundings.writes = written at hwritten
  obtain ⟨hall, hmore⟩ := hopened.append hwritten
  have hprogress (bytes total : UInt64) (files : ℕ) :
      (s.emit (.progress entry.fileIndex bytes total files)).Copied contents :=
    h.emit trivial
  split
  case isTrue hlast =>
    -- the last piece
    refine copied_startNext _ _ ((hprogress _ _ _).pass
      (.done entry.fileIndex _ _ _ _ _) (FileEffect.exactOrEmpty_done (.inl ?_)) rfl rfl
      fun i hi ↦ ?_)
    · rw [hindex]
      exact (Function.update_self _ _ _).trans (congrArg some (hall hlast))
    · exact List.getElem?_set_ne (Nat.ne_of_lt hi)
  case isFalse hlast =>
    refine Copied.send ?_ _ _ _ _ _
    refine (hprogress _ _ _).open_set hentry rfl ?_ rfl rfl
    exact (hmore hlast).of_file (Function.update_self _ _ _)

/-- **One answer** to the request for the entry under the cursor. -/
theorem copied_receive (h : s.Copied contents) {entry : DownloadEntry} {request : ContentsRequest}
    {ok : Bool} {data : Option (List UInt8)} {surroundings : Surroundings}
    (hentry : s.downloads[s.current]? = some entry) (hindex : entry.fileIndex = s.current)
    (hasks : AsksFor request s.current entry)
    (htruthful : ok = true → request.Truthful contents (data.getD [])) :
    (s.receive s.current entry ⟨request.streamId, ok, data⟩ surroundings).Copied contents := by
  rw [receive]
  split
  case isTrue hfailed => exact h.finishEntry (.error entry.fileIndex _) trivial rfl
  case isFalse hok =>
    have htrue : ok = true := by simpa using hok
    replace htruthful := htruthful htrue
    obtain ⟨hlistIndex, hasks⟩ := hasks
    rw [ContentsRequest.Truthful, hlistIndex] at htruthful
    cases hkind : request.kind with
    | size =>
      rw [hkind] at htruthful hasks
      obtain ⟨hlength, hsize⟩ := htruthful
      obtain ⟨bytes, rfl⟩ : ∃ bytes, data = some bytes := by
        cases data with
        | none => cases hlength
        | some bytes => exact ⟨bytes, rfl⟩
      have hreceived : entry.sizeReceived = false := hasks
      have hfresh : Fresh entry := (h.here entry hentry).resolve_right fun hopened ↦ by
        cases hopened.sizeReceived.symm.trans hreceived
      rw [hreceived, if_pos (by rfl), htrue]
      exact copied_receiveSize h hentry hindex hfresh ((toNat_size hlength).trans hsize)
    | range =>
      rw [hkind] at htruthful hasks
      obtain ⟨hreceived, hposition⟩ := hasks
      have hopened := (h.here entry hentry).resolve_left fun hfresh ↦ by
        cases hfresh.sizeReceived.symm.trans hreceived
      rw [hreceived, if_neg (by decide)]
      split
      · exact h
      · exact h
      · next bytes _ hdata =>
        split
        · refine copied_receiveRange h hentry hindex hopened ?_
          obtain rfl : data = some bytes := hdata
          rw [← hposition]
          exact htruthful
        · exact h

/-- **One answer**: it is for the entry under the cursor, or for none. -/
theorem Copied.fileContentsResponse (h : s.Copied contents) (htended : s.Tended) {k : ℕ}
    {request : ContentsRequest} (hrequest : s.requests[k]? = some request) {ok : Bool}
    {data : Option (List UInt8)} {surroundings : Surroundings}
    (htruthful : ok = true → request.Truthful contents (data.getD [])) :
    Copied contents ({ s with requests := s.requests.eraseIdx k }.fileContentsResponse
      ⟨request.streamId, ok, data⟩ surroundings) := by
  have herased : Copied contents { s with requests := s.requests.eraseIdx k } :=
    h.of_eq rfl rfl rfl rfl
  rw [CliprdrFile.fileContentsResponse]
  split
  · exact herased
  · split
    · exact herased
    · next i entry hentryOf =>
      have hentry : s.downloads[i]? = some entry := entryOf_getElem? hentryOf
      have heq := entryOf_streamId hentryOf
      obtain ⟨rfl, hasks⟩ :=
        htended.asked request (List.mem_of_getElem? hrequest) i entry hentry heq
      exact copied_receive herased hentry (htended.tallied.indexed _ _ hentry) hasks htruthful

/-! ### Calls -/

/-- Without a download there is nothing to copy. -/
theorem Copied.of_downloads_eq_nil (h : s.Copied contents) (hdownloads : t.downloads = [])
    (hhistory : t.history = s.history) : t.Copied contents :=
  ⟨copying_of_downloads_eq_nil hdownloads, hhistory ▸ h.reported⟩

theorem Copied.requestDownload (h : s.Copied contents) (tempDir : Path) (accepts : ℕ → Bool) :
    (s.requestDownload tempDir accepts).Copied contents := by
  rw [CliprdrFile.requestDownload]
  split
  · exact h
  · exact copied_startNext _ _ ⟨copying_newDownloads rfl, reported_concat h.reported trivial⟩

end CliprdrFile

open CliprdrFile

variable {parseFileList : List UInt8 → List FileDescriptor} {contents : ℕ → List UInt8}

/-- **One call.** -/
theorem Clipboard.copied_call {s : Clipboard} (call : ClipboardCall)
    (h : s.file.Copied contents) : (s.call parseFileList call).file.Copied contents := by
  cases call with
  | channelConnected => exact h.of_eq rfl rfl rfl rfl
  | channelDisconnected => exact h.of_downloads_eq_nil rfl rfl
  | monitorReady => exact h
  | formatList formats acknowledged sent =>
    rw [Clipboard.call]
    dsimp only
    split
    · exact h.of_downloads_eq_nil rfl rfl
    · exact h
  | dataResponse response =>
    rw [Clipboard.call]
    dsimp only
    split
    · exact h.of_eq rfl rfl rfl rfl
    · exact h
  | requestDownload tempDir accepts => exact h.requestDownload tempDir accepts

/-! ### Runs -/

theorem copied_init : Copied contents {} :=
  ⟨copying_of_downloads_eq_nil rfl, fun _ hmem ↦ absurd hmem List.not_mem_nil⟩

/-- The empty file cannot be created; of the next one less is written than has arrived. The download
is restarted, and then all sizes are refused. -/
def interrupted : List FailingAction :=
  [.call .channelConnected,
    .call (.formatList [⟨49270, some "FileGroupDescriptorW"⟩] true true),
    .call (.dataResponse ⟨true, some [3]⟩),
    .call (.requestDownload [0x74] fun _ ↦ true),
    .answer 0 true (some [0, 0, 0, 0, 0, 0, 0, 0]) ⟨fun _ ↦ true, false, 0⟩,
    .answer 0 true (some [3, 0, 0, 0, 0, 0, 0, 0]) ⟨fun _ ↦ true, true, 0⟩,
    .answer 0 true (some [7, 8]) ⟨fun _ ↦ true, true, 1⟩,
    .answer 0 true (some [8, 9]) ⟨fun _ ↦ true, true, 2⟩,
    .call (.requestDownload [0x75] fun _ ↦ true),
    .answer 0 false none ⟨fun _ ↦ true, true, 0⟩,
    .answer 0 false none ⟨fun _ ↦ true, true, 0⟩]

end RdpMcp
