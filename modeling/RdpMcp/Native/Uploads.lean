import RdpMcp.Native.LocalFiles

/-!
# Indices and progress of uploads

The server names the file that it wants by its index in the list of staged files. The index is
checked once, as an `int`, and used three times: to look the file up, and, after a piece has been
read without the lock, to add to the entry's counter and to read its size.

Two things can go wrong. **An index from `2 ^ 31` on** is negative as an `int`, and passes the check
of every list (`handle_inBounds_iff`). And **the list may have been replaced** between the check and
the last use: then the counter of another file is raised, or that of no file (`accounted_iff`). To
say whose counter it should have been, the second part remembers beside the code's state which
staging a file was opened in, and how many bytes have been read for each entry since it was staged.
-/

open ListUpdate

namespace RdpMcp

namespace LocalFiles

variable {s t : LocalFiles}

/-! ### One request -/

/-- `cb_server_file_contents_request`, with nothing in between: what is in the file system when it
is looked up, and what is read from the file if it is opened. -/
def handle (s : LocalFiles) (request : ServerRequest) (fileSystem : FileSystem)
    (contents : Option (List UInt8)) : LocalFiles :=
  let s := s.serverFileContentsRequest request fileSystem
  match s.reading with
  | none => s
  | some (request, path) => s.finishReading request path contents

/-- The request reads no entry beyond the list, and is refused if its index is beyond the list. -/
def InBounds (s t : LocalFiles) (request : ServerRequest) : Prop :=
  t.undefined = false ∧ (s.staged.length ≤ request.listIndex.toNat →
    t.history = s.history ++ [.answered request .fail (s.lockedList request)])

/-- A piece of an open file is accounted for in its entry, which is there. -/
theorem finishReading_inBounds {request : ServerRequest} {path : Path}
    {contents : Option (List UInt8)} (hdefined : s.undefined = false)
    (hlt : request.listIndex.toNat < s.staged.length) :
    (s.finishReading request path contents).undefined = false := by
  unfold finishReading
  cases contents with
  | none => exact hdefined
  | some contents =>
    dsimp only
    split
    · next hnone =>
      have hle := List.getElem?_eq_none_iff.1 hnone
      exact absurd hlt (Nat.not_lt.2 hle)
    · exact hdefined

/-- **An index that is an `int`** is checked as it is meant. -/
theorem serve_eq_fail {request : ServerRequest} (hindex : request.listIndex.toNat < 2 ^ 31)
    (hbeyond : s.staged.length ≤ request.listIndex.toNat) (fileSystem : FileSystem) :
    s.serve request fileSystem = .answered .fail := by
  rw [serve]
  split
  · rfl
  · next files hfiles =>
    rw [staged, hfiles, Option.getD_some] at hbeyond
    rw [toInt_listIndex hindex, if_pos (Int.ofNat_le.2 hbeyond)]

theorem handle_inBounds (hidle : s.reading = none) (hdefined : s.undefined = false)
    (hlength : s.staged.length < 2 ^ 31) {request : ServerRequest}
    (hindex : request.listIndex.toNat < 2 ^ 31) (fileSystem : FileSystem)
    (contents : Option (List UInt8)) :
    InBounds s (s.handle request fileSystem contents) request := by
  rw [handle, serverFileContentsRequest]
  cases hserve : s.serve request fileSystem with
  | undefined => exact absurd hindex ((serve_eq_undefined_iff hlength).1 hserve).2
  | answered answer =>
    dsimp only [LocalFiles.answer]
    rw [hidle]
    refine ⟨hdefined, fun hbeyond ↦ ?_⟩
    rw [serve_eq_fail hindex hbeyond] at hserve
    obtain rfl := ServeOutcome.answered.inj hserve
    rfl
  | opened path =>
    have hlt := lt_length_of_serve_eq_opened hserve
    exact ⟨finishReading_inBounds hdefined hlt, fun hbeyond ↦ absurd hlt (Nat.not_lt.2 hbeyond)⟩

/-- **Any other index** passes the check. -/
theorem handle_undefined (hidle : s.reading = none) (hlength : s.staged.length < 2 ^ 31)
    (hstaged : 1 ≤ s.staged.length) {request : ServerRequest}
    (hindex : ¬request.listIndex.toNat < 2 ^ 31) (fileSystem : FileSystem)
    (contents : Option (List UInt8)) :
    (s.handle request fileSystem contents).undefined = true := by
  have hfiles : s.files ≠ none := by
    intro hnone
    rw [staged, hnone] at hstaged
    cases hstaged
  rw [handle, serverFileContentsRequest, (serve_eq_undefined_iff hlength).2 ⟨hfiles, hindex⟩]
  dsimp only
  rw [hidle]

end LocalFiles

open LocalFiles

/-- **The exact condition.** With files staged, a request reads no entry beyond the list, and is
refused if its index is, exactly if the index is an `int`. -/
theorem handle_inBounds_iff (strtod : List UInt8 → CDouble × ℕ) (actions : List LocalAction)
    {s : LocalFiles} (hrun : (localSystem strtod).run {} actions = some s)
    (hidle : s.reading = none) (hdefined : s.undefined = false) (hstaged : 1 ≤ s.staged.length)
    (request : ServerRequest) (fileSystem : FileSystem) (contents : Option (List UInt8)) :
    InBounds s (s.handle request fileSystem contents) request ↔
      request.listIndex.toNat < 2 ^ 31 := by
  have hlength : s.staged.length < 2 ^ 31 :=
    StepSystem.run_invariant (P := fun s : LocalFiles ↦ s.staged.length < 2 ^ 31)
      (fun s a t h hstep ↦ length_staged_step h hstep) (by decide) hrun
  refine ⟨fun hinBounds ↦ ?_, fun hindex ↦
    handle_inBounds hidle hdefined hlength hindex fileSystem contents⟩
  by_contra hindex
  cases (handle_undefined hidle hlength hstaged hindex fileSystem contents).symm.trans hinBounds.1

/-- One file is staged. -/
def oneFile : List LocalAction :=
  [.setLocalFiles (utf8 "[\x7b\"path\":\"/a\",\"name\":\"a\"\x7d]")]

/-- Its first piece can be asked for. -/
theorem handle_inBounds_oneFile :
    ∃ s, (localSystem fun _ ↦ (.infinite false, 0)).run {} oneFile = some s ∧
      InBounds s (s.handle (pieceRequest 0) (fun _ ↦ some [1]) (some [1])) (pieceRequest 0) :=
  ⟨_, rfl, (handle_inBounds_iff (fun _ ↦ (.infinite false, 0)) oneFile rfl rfl rfl (by decide)
    _ _ _).2 (by decide)⟩

/-- **Its piece with the index `2 ^ 31` is looked up beyond the list.** -/
theorem oneFile_outOfBounds :
    ∃ s, (localSystem fun _ ↦ (.infinite false, 0)).run {} oneFile = some s ∧
      s.staged.length = 1 ∧ (pieceRequest (2 ^ 31)).listIndex.toNat = 2 ^ 31 ∧
      (s.handle (pieceRequest (2 ^ 31)) (fun _ ↦ none) none).undefined = true ∧
      ¬InBounds s (s.handle (pieceRequest (2 ^ 31)) (fun _ ↦ none) none)
        (pieceRequest (2 ^ 31)) := by
  refine ⟨_, rfl, by decide, by decide, by decide, fun h ↦ ?_⟩
  exact absurd h.1 (by decide)

/-! ### Progress -/

/-- The module, with what has been read for the files that are staged. -/
structure Uploads where
  files : LocalFiles := {}
  /-- How often files have been staged or cleared. -/
  stagings : ℕ := 0
  /-- How often they had been when the file that is being read was opened. -/
  openedAt : ℕ := 0
  /-- How many bytes have been read for each entry that is staged, since it was. -/
  read : List ℕ := []

/-- The piece of a file that a request asks for. -/
def pieceOf (request : ServerRequest) (contents : List UInt8) : List UInt8 :=
  (contents.drop request.offset).take request.cbRequested.toNat

/-- The step is no request with an index from `2 ^ 31` on. -/
def indexFits : LocalAction → Bool
  | .request request _ => request.listIndex.toNat < 2 ^ 31
  | _ => true

/-- Files are staged, or cleared. -/
def Uploads.restage (s : Uploads) (files : LocalFiles) : Uploads :=
  { s with
    files
    stagings := s.stagings + 1
    read := files.staged.map fun _ ↦ 0 }

/-- What is remembered after a step of the module. -/
def Uploads.after (strtod : List UInt8 → CDouble × ℕ) (s : Uploads) (files : LocalFiles) :
    LocalAction → Uploads
  | .setLocalFiles json =>
    if (stagedFiles strtod json).isSome then s.restage files else { s with files }
  | .clearLocalFiles => s.restage files
  | .request _ _ => { s with files, openedAt := s.stagings }
  | .finishReading (some contents) =>
    match s.files.reading with
    | none => { s with files }
    | some (request, _) =>
      -- the bytes were read for an entry of the list that was staged then
      if s.openedAt = s.stagings then
        { s with
          files
          read := s.read.modify request.listIndex.toNat (· + (pieceOf request contents).length) }
      else { s with files }
  | .finishReading none | .lock _ | .unlock _ => { s with files }

/-- The two threads, with requests whose index is an `int`. -/
def uploadSystem (strtod : List UInt8 → CDouble × ℕ) : StepSystem Uploads LocalAction where
  step s action :=
    if indexFits action then
      ((localSystem strtod).step s.files action).map fun files ↦ s.after strtod files action
    else none

namespace Uploads

/-- **The counters are right**: no entry beyond the list has been read or changed, and the counter
of every entry is the number of bytes read for it since it was staged. -/
structure Accounted (s : Uploads) : Prop where
  defined : s.files.undefined = false
  read : s.files.staged.map (fun entry ↦ entry.bytesServed.toNat) = s.read

/-- The piece is accounted for in an entry that is there: in the entry that the file was opened for,
whose counter has room for it, or, without a byte, in any. -/
def Undisturbed (s : Uploads) : LocalAction → Prop
  | .finishReading (some contents) => ∀ request path, s.files.reading = some (request, path) →
      ∃ entry, s.files.staged[request.listIndex.toNat]? = some entry ∧
        if s.openedAt = s.stagings then
          entry.bytesServed.toNat + (pieceOf request contents).length < 2 ^ 64
        else pieceOf request contents = []
  | _ => True

/-- What holds between two steps: the list is short, and the index of the piece that is being read
has been checked. -/
structure Checked (s : Uploads) : Prop where
  length : s.files.staged.length < 2 ^ 31
  openedAt : s.openedAt ≤ s.stagings
  reading : ∀ request path, s.files.reading = some (request, path) →
    s.openedAt = s.stagings → request.listIndex.toNat < s.files.staged.length

variable {strtod : List UInt8 → CDouble × ℕ} {s t : Uploads} {action : LocalAction}

/-! ### Counters -/

theorem length_pieceOf_lt (request : ServerRequest) (contents : List UInt8) :
    (pieceOf request contents).length < 2 ^ 32 :=
  Nat.lt_of_le_of_lt (List.length_take_le _ _) request.cbRequested.toNat_lt

theorem toNat_add_ofNat (served : UInt64) {n : ℕ} (hn : n < 2 ^ 32) :
    (served + UInt64.ofNat n).toNat = (served.toNat + n) % 2 ^ 64 := by
  rw [UInt64.toNat_add, UInt64.toNat_ofNat', Nat.mod_eq_of_lt (show n < 2 ^ 64 by omega)]

/-- A counter with room is raised by as much as is read. -/
theorem toNat_add_ofNat_eq_add_iff (served : UInt64) {n : ℕ} (hn : n < 2 ^ 32) :
    (served + UInt64.ofNat n).toNat = served.toNat + n ↔ served.toNat + n < 2 ^ 64 := by
  have hlt := served.toNat_lt
  rw [toNat_add_ofNat served hn]
  omega

/-- A counter stays only if nothing is read. -/
theorem toNat_add_ofNat_eq_iff (served : UInt64) {n : ℕ} (hn : n < 2 ^ 32) :
    (served + UInt64.ofNat n).toNat = served.toNat ↔ n = 0 := by
  have hlt := served.toNat_lt
  rw [toNat_add_ofNat served hn]
  omega

/-- Setting the counter of an entry. -/
theorem map_bytesServed_set {files : List LocalFile} {i : ℕ} {entry : LocalFile}
    (hentry : files[i]? = some entry) (bytesServed : UInt64) (read : List ℕ)
    (hread : files.map (fun entry ↦ entry.bytesServed.toNat) = read) (f : ℕ → ℕ) :
    (files.set i { entry with bytesServed }).map (fun entry ↦ entry.bytesServed.toNat) =
        read.modify i f ↔ bytesServed.toNat = f entry.bytesServed.toNat := by
  obtain ⟨hlt, -⟩ := List.getElem?_eq_some_iff.1 hentry
  have hcounter : read[i]? = some entry.bytesServed.toNat := by
    rw [← hread, List.getElem?_map, hentry]
    rfl
  have hlength : i < read.length := by
    rw [← hread, List.length_map]
    exact hlt
  rw [List.map_set, hread, List.modify_eq_set_getElem?, hcounter]
  constructor
  · intro h
    have hi := congrArg (·[i]?) h
    simpa [hlength] using hi
  · intro h
    rw [h]
    rfl

/-! ### Steps -/

theorem finishReading_of_getElem? {files : LocalFiles} {request : ServerRequest}
    {entry : LocalFile} (hentry : files.staged[request.listIndex.toNat]? = some entry) (path : Path)
    (contents : List UInt8) :
    (files.finishReading request path (some contents)).undefined = files.undefined ∧
      (files.finishReading request path (some contents)).staged =
        files.staged.set request.listIndex.toNat
          { entry with
            bytesServed :=
              entry.bytesServed + UInt64.ofNat (pieceOf request contents).length } := by
  have hentry' : LocalFiles.staged { files with reading := none } = files.staged := rfl
  unfold LocalFiles.finishReading
  dsimp only
  rw [hentry', hentry]
  exact ⟨rfl, rfl⟩

theorem finishReading_of_getElem?_eq_none {files : LocalFiles} {request : ServerRequest}
    (hentry : files.staged[request.listIndex.toNat]? = none) (path : Path)
    (contents : List UInt8) :
    (files.finishReading request path (some contents)).undefined = true := by
  have hentry' : LocalFiles.staged { files with reading := none } = files.staged := rfl
  unfold LocalFiles.finishReading
  dsimp only
  rw [hentry', hentry]

/-- **A piece is accounted for.** -/
theorem accounted_finishReading_iff (h : s.Accounted) {request : ServerRequest} {path : Path}
    (hreading : s.files.reading = some (request, path)) (contents : List UInt8) :
    (s.after strtod (s.files.finishReading request path (some contents))
        (.finishReading (some contents))).Accounted ↔
      s.Undisturbed (.finishReading (some contents)) := by
  have hundisturbed : s.Undisturbed (.finishReading (some contents)) ↔
      ∃ entry, s.files.staged[request.listIndex.toNat]? = some entry ∧
        if s.openedAt = s.stagings then
          entry.bytesServed.toNat + (pieceOf request contents).length < 2 ^ 64
        else pieceOf request contents = [] := by
    refine ⟨fun hundisturbed ↦ hundisturbed request path hreading,
      fun hentry request' path' h' ↦ ?_⟩
    obtain ⟨rfl, rfl⟩ := Prod.mk.inj (Option.some.inj (hreading.symm.trans h'))
    exact hentry
  rw [hundisturbed, after, hreading]
  cases hentry : s.files.staged[request.listIndex.toNat]? with
  | none =>
    have hundefined := finishReading_of_getElem?_eq_none hentry path contents
    refine iff_of_false (fun haccounted ↦ ?_) (fun hsome ↦ ?_)
    · have hdefined := haccounted.defined
      dsimp only at hdefined
      split at hdefined
      · cases hundefined.symm.trans hdefined
      · cases hundefined.symm.trans hdefined
    · obtain ⟨entry, hnone, -⟩ := hsome
      cases hnone
  | some entry =>
    obtain ⟨hundefined, hstaged⟩ := finishReading_of_getElem? hentry path contents
    have hlt := length_pieceOf_lt request contents
    have hexists (p : LocalFile → Prop) :
        (∃ entry', some entry = some entry' ∧ p entry') ↔ p entry :=
      ⟨fun ⟨_, heq, hp⟩ ↦ Option.some.inj heq ▸ hp, fun hp ↦ ⟨entry, rfl, hp⟩⟩
    rw [hexists]
    have hcounter (f : ℕ → ℕ) := map_bytesServed_set hentry
      (entry.bytesServed + UInt64.ofNat (pieceOf request contents).length) _ h.read f
    rw [← hstaged] at hcounter
    dsimp only
    split
    · rw [← toNat_add_ofNat_eq_add_iff _ hlt, ← hcounter (· + (pieceOf request contents).length)]
      exact ⟨fun haccounted ↦ haccounted.read, fun hread ↦ ⟨hundefined.trans h.defined, hread⟩⟩
    · have hread := hcounter id
      rw [List.modify_id] at hread
      rw [← List.length_eq_zero_iff, ← toNat_add_ofNat_eq_iff entry.bytesServed hlt]
      exact ⟨fun haccounted ↦ hread.1 haccounted.read,
        fun heq ↦ ⟨hundefined.trans h.defined, hread.2 heq⟩⟩

/-- A file that is staged has been served nothing. -/
theorem bytesServed_stagedFiles {json : List UInt8} {files : Option (List LocalFile)}
    (hstaged : stagedFiles strtod json = some files) :
    (files.getD []).map (fun entry ↦ entry.bytesServed.toNat) = (files.getD []).map fun _ ↦ 0 := by
  refine List.map_congr_left fun entry hentry ↦ ?_
  rw [stagedFiles] at hstaged
  split at hstaged
  · split at hstaged
    · obtain rfl := Option.some.inj hstaged
      cases hentry
    · obtain rfl := Option.some.inj hstaged
      obtain ⟨item, -, hitem⟩ := List.mem_filterMap.1 hentry
      rw [localFileOf] at hitem
      split at hitem
      · obtain rfl := Option.some.inj hitem
        rfl
      · cases hitem
  · cases hstaged

/-- What is read is unchanged, and so are the counters. -/
theorem Accounted.of_eq (h : s.Accounted) (hdefined : t.files.undefined = s.files.undefined)
    (hstaged : t.files.staged = s.files.staged) (hread : t.read = s.read) : t.Accounted := by
  refine ⟨hdefined.trans h.defined, ?_⟩
  rw [hstaged, hread]
  exact h.read

/-- The piece that is being read is the same, and so is the list. -/
theorem Checked.of_eq (h : s.Checked) (hstaged : t.files.staged = s.files.staged)
    (hreading : t.files.reading = s.files.reading) (hopenedAt : t.openedAt = s.openedAt)
    (hstagings : t.stagings = s.stagings) : t.Checked := by
  refine ⟨?_, ?_, ?_⟩
  · rw [hstaged]
    exact h.length
  · rw [hopenedAt, hstagings]
    exact h.openedAt
  · rw [hstaged, hreading, hopenedAt, hstagings]
    exact h.reading

/-- Nothing is being read. -/
theorem checked_of_idle (hlength : t.files.staged.length < 2 ^ 31)
    (hidle : t.files.reading = none) (hopenedAt : t.openedAt ≤ t.stagings) : t.Checked := by
  refine ⟨hlength, hopenedAt, fun request path hreading ↦ ?_⟩
  cases hidle.symm.trans hreading

/-- **Other files are staged**: what is being read is of no concern any more. -/
theorem Checked.restage (h : s.Checked) {files : LocalFiles}
    (hlength : files.staged.length < 2 ^ 31) : (s.restage files).Checked := by
  have hopenedAt := h.openedAt
  refine ⟨hlength, Nat.le_succ_of_le hopenedAt, fun request path _ hsame ↦ ?_⟩
  have hsame' : s.openedAt = s.stagings + 1 := hsame
  omega

/-- **One step** leaves a list that is short, and an index that has been checked. -/
theorem checked_step (h : s.Checked) (hstep : (uploadSystem strtod).step s action = some t) :
    t.Checked := by
  obtain ⟨hfits, hmap⟩ := Option.ite_none_right_eq_some.1 hstep
  obtain ⟨files, hfiles, rfl⟩ := Option.map_eq_some_iff.1 hmap
  have hlength : files.staged.length < 2 ^ 31 := length_staged_step h.length hfiles
  cases action with
  | setLocalFiles json =>
    obtain rfl := Option.some.inj hfiles
    rw [after]
    split
    · exact h.restage hlength
    · next hstaged =>
      rw [Option.not_isSome_iff_eq_none] at hstaged
      rw [LocalFiles.setLocalFiles, hstaged]
      exact h
  | clearLocalFiles => exact h.restage hlength
  | lock clipDataId =>
    obtain ⟨hidle, heq⟩ := Option.ite_none_right_eq_some.1 hfiles
    obtain rfl := Option.some.inj heq
    exact h.of_eq rfl rfl rfl rfl
  | unlock clipDataId =>
    obtain ⟨hidle, heq⟩ := Option.ite_none_right_eq_some.1 hfiles
    obtain rfl := Option.some.inj heq
    exact h.of_eq rfl rfl rfl rfl
  | request request fileSystem =>
    obtain ⟨hidle, heq⟩ := Option.ite_none_right_eq_some.1 hfiles
    obtain rfl := Option.some.inj heq
    rw [Option.isNone_iff_eq_none] at hidle
    rw [after]
    cases hserve : s.files.serve request fileSystem with
    | undefined =>
      rw [serverFileContentsRequest, hserve] at hlength ⊢
      exact checked_of_idle hlength hidle (Nat.le_refl _)
    | answered answer =>
      rw [serverFileContentsRequest, hserve] at hlength ⊢
      exact checked_of_idle hlength hidle (Nat.le_refl _)
    | opened path =>
      rw [serverFileContentsRequest, hserve] at hlength ⊢
      refine ⟨hlength, Nat.le_refl _, fun request' path' hreading _ ↦ ?_⟩
      obtain ⟨rfl, rfl⟩ := Prod.mk.inj (Option.some.inj hreading)
      exact lt_length_of_serve_eq_opened hserve
  | finishReading contents =>
    rw [localSystem] at hfiles
    dsimp only at hfiles
    split at hfiles
    · cases hfiles
    · next request path hreading =>
      obtain rfl := Option.some.inj hfiles
      have hidle : (s.files.finishReading request path contents).reading = none := by
        unfold LocalFiles.finishReading
        cases contents with
        | none => rfl
        | some contents =>
          dsimp only
          split <;> rfl
      cases contents with
      | none => exact checked_of_idle hlength hidle h.openedAt
      | some contents =>
        rw [after, hreading]
        dsimp only
        split
        · exact checked_of_idle hlength hidle h.openedAt
        · exact checked_of_idle hlength hidle h.openedAt

/-- **One step** keeps the counters right exactly if it is undisturbed. -/
theorem accounted_step_iff (hchecked : s.Checked) (h : s.Accounted)
    (hstep : (uploadSystem strtod).step s action = some t) :
    t.Accounted ↔ s.Undisturbed action := by
  obtain ⟨hfits, hmap⟩ := Option.ite_none_right_eq_some.1 hstep
  obtain ⟨files, hfiles, rfl⟩ := Option.map_eq_some_iff.1 hmap
  cases action with
  | setLocalFiles json =>
    obtain rfl := Option.some.inj hfiles
    refine iff_of_true ?_ trivial
    rw [after]
    cases hstaged : stagedFiles strtod json with
    | none =>
      rw [LocalFiles.setLocalFiles, hstaged]
      exact h
    | some files =>
      rw [LocalFiles.setLocalFiles, hstaged]
      exact ⟨h.defined, bytesServed_stagedFiles hstaged⟩
  | clearLocalFiles =>
    obtain rfl := Option.some.inj hfiles
    exact iff_of_true ⟨h.defined, rfl⟩ trivial
  | lock clipDataId =>
    obtain ⟨-, heq⟩ := Option.ite_none_right_eq_some.1 hfiles
    obtain rfl := Option.some.inj heq
    exact iff_of_true (h.of_eq rfl rfl rfl) trivial
  | unlock clipDataId =>
    obtain ⟨-, heq⟩ := Option.ite_none_right_eq_some.1 hfiles
    obtain rfl := Option.some.inj heq
    exact iff_of_true (h.of_eq rfl rfl rfl) trivial
  | request request fileSystem =>
    obtain ⟨-, heq⟩ := Option.ite_none_right_eq_some.1 hfiles
    obtain rfl := Option.some.inj heq
    refine iff_of_true ?_ trivial
    rw [after, serverFileContentsRequest]
    cases hserve : s.files.serve request fileSystem with
    | undefined =>
      have hlarge := ((serve_eq_undefined_iff hchecked.length).1 hserve).2
      exact absurd (of_decide_eq_true hfits) hlarge
    | answered answer => exact h.of_eq rfl rfl rfl
    | opened path => exact h.of_eq rfl rfl rfl
  | finishReading contents =>
    rw [localSystem] at hfiles
    dsimp only at hfiles
    split at hfiles
    · cases hfiles
    · next request path hreading =>
      obtain rfl := Option.some.inj hfiles
      cases contents with
      | none => exact iff_of_true (h.of_eq rfl rfl rfl) trivial
      | some contents => exact accounted_finishReading_iff h hreading contents

end Uploads

open Uploads

/-- **The exact condition.** In all states of a run the counters are right exactly if every piece in
it is accounted for while the entry that its file was opened for is still staged, and its counter
has room, or is empty and accounted for at an index that is staged. -/
theorem accounted_iff (strtod : List UInt8 → CDouble × ℕ) (actions : List LocalAction) :
    (∀ pre post s, actions = pre ++ post → (uploadSystem strtod).run {} pre = some s →
        s.Accounted) ↔
      (uploadSystem strtod).StepsMeet Undisturbed {} actions := by
  refine (StepSystem.stepsMeet_iff_forall_prefix (I := Checked) (P := Accounted)
    (fun s action t h hstep ↦ checked_step h hstep) ?_
    (fun s action t hchecked h hstep ↦ accounted_step_iff hchecked h hstep) ?_ ?_).symm
  · intro s action hchecked hstuck
    cases action with
    | finishReading contents =>
      cases contents with
      | none => trivial
      | some contents =>
        intro request path hreading
        rw [uploadSystem] at hstuck
        dsimp only at hstuck
        rw [if_pos (by rfl), Option.map_eq_none_iff, localSystem] at hstuck
        simp only [hreading] at hstuck
        cases hstuck
    | _ => trivial
  · refine ⟨by decide, Nat.le_refl 0, fun request path hreading ↦ ?_⟩
    cases hreading
  · exact ⟨rfl, rfl⟩

/-- A file is staged and a piece of it is asked for. -/
def pieceOpened : List LocalAction :=
  oneFile ++ [.request ⟨1, 0, fileContentsRange, 0, 0, 4, false, 0⟩ fun _ ↦ some [1, 2]]

/-- **The piece is accounted for in another file**, if one is staged while it is read, and beyond
the list, if the files are cleared. -/
theorem pieceOpened_disturbed :
    (∃ s, (uploadSystem fun _ ↦ (.infinite false, 0)).run {} (pieceOpened ++
        [.setLocalFiles (utf8 "[\x7b\"path\":\"/b\",\"name\":\"b\"\x7d]"),
          .finishReading (some [1, 2])]) = some s ∧
      s.files.staged.map LocalFile.path = [utf8 "/b"] ∧
      s.files.staged.map LocalFile.bytesServed = [2] ∧ s.read = [0] ∧ ¬s.Accounted) ∧
    (∃ s, (uploadSystem fun _ ↦ (.infinite false, 0)).run {} (pieceOpened ++
        [.clearLocalFiles, .finishReading (some [1, 2])]) = some s ∧
      s.files.undefined = true ∧ ¬s.Accounted) := by
  refine ⟨⟨_, rfl, by decide, by decide, by decide, fun h ↦ ?_⟩, ⟨_, rfl, by decide, fun h ↦ ?_⟩⟩
  · exact absurd h.read (by decide)
  · exact absurd h.defined (by decide)

end RdpMcp
