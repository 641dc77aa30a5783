import Mathlib.Data.List.Infix
import RdpMcp.Foundations.LittleEndian
import RdpMcp.Foundations.ListUpdate
import RdpMcp.Foundations.StepSystem
import RdpMcp.Native.CJson
import RdpMcp.Native.CliprdrFile

/-!
# Local files on the remote clipboard

Files are staged by the command thread and served by the channel thread: the server asks for the
size or a piece of the file at an index of the list. The server locks the clipboard before it reads
several pieces, and the module announces that it can be locked; but **the lock is only recorded**,
and what is served is always the list that is staged now.

A piece is served in three parts: the file is looked up and opened under the module's lock, read
without it, and accounted for under the lock again, **at an index that was checked in the first
part**. The command thread may stage other files in between. The index is checked as an `int`, so
one from `2 ^ 31` on passes. Reading beyond the list is undefined behaviour, which is part of the
state.

The lists that the server has locked are remembered beside the code's state. `Safe` is what they are
locked for, and `lockedList_iff` the exact condition.
-/

open LittleEndian ListUpdate

namespace RdpMcp

/-! ### Staged files -/

/-- `LocalFileEntry`. -/
structure LocalFile where
  path : Path
  name : Path
  size : UInt64
  isDirectory : Bool
  /-- `bytes_served`. -/
  bytesServed : UInt64 := 0
  deriving DecidableEq, Repr

/-- `MAX_LOCAL_FILES`. -/
def maxLocalFiles : ℕ := 256

/-- A double as `UINT64`; what does not fit is undefined, and taken modulo `2 ^ 64` here. -/
def CDouble.toUInt64 : CDouble → UInt64
  | finite value => UInt64.ofInt (value.num.tdiv value.den)
  | infinite _ => 0

/-- One entry, unless its path or name is no string. -/
def localFileOf (item : CJson) : Option LocalFile :=
  match item.item "path", item.item "name" with
  | some (.string path), some (.string name) =>
    some
      { path := cString path
        name := cString name
        size :=
          match item.item "size" with
          | some (.number size) => size.toUInt64
          | _ => 0
        isDirectory :=
          match item.item "isDirectory" with
          | some (.bool isDirectory) => isDirectory
          | _ => false }
  | _, _ => none

/-- What `cliprdr_file_set_local_files` stages, unless the text is no array; `none` inside is a null
list. -/
def stagedFiles (strtod : List UInt8 → CDouble × ℕ) (json : List UInt8) :
    Option (Option (List LocalFile)) :=
  match cJsonParse strtod json with
  | some (.array items) =>
    if items.length = 0 ∨ items.length > maxLocalFiles then some none
    else some (some (items.filterMap localFileOf))
  | _ => none

/-! ### Requests of the server -/

/-- `FILECONTENTS_SIZE`. -/
def fileContentsSize : UInt32 := 1

/-- `FILECONTENTS_RANGE`. -/
def fileContentsRange : UInt32 := 2

/-- `CLIPRDR_FILE_CONTENTS_REQUEST`, as the server sends it. -/
structure ServerRequest where
  streamId : UInt32
  listIndex : UInt32
  dwFlags : UInt32
  nPositionLow : UInt32
  nPositionHigh : UInt32
  cbRequested : UInt32
  haveClipDataId : Bool
  clipDataId : UInt32
  deriving DecidableEq, Repr

/-- The offset of a piece. -/
def ServerRequest.offset (request : ServerRequest) : ℕ :=
  request.nPositionHigh.toNat * 2 ^ 32 + request.nPositionLow.toNat

/-- The answer to a request, and the file that its data is from. -/
inductive ServerAnswer where
  | fail
  | ok (path : Path) (data : List UInt8)
  deriving DecidableEq, Repr

/-- How the first part of `cb_server_file_contents_request` ends. -/
inductive ServeOutcome where
  /-- An entry beyond the list is read. -/
  | undefined
  | answered (answer : ServerAnswer)
  /-- A file is open, to be read. -/
  | opened (path : Path)
  deriving DecidableEq, Repr

/-- The files that can be read, and what is in them. -/
abbrev FileSystem := Path → Option (List UInt8)

/-- What the module does for the server. -/
inductive ServeEffect where
  /-- A request is answered; the list is the one that its lock was taken for. -/
  | answered (request : ServerRequest) (answer : ServerAnswer) (locked : Option (List Path))
  /-- CLIPBOARD_FILE_PROGRESS. -/
  | progress (fileIndex : UInt32) (transferred total : UInt64) (files : ℕ)
  deriving DecidableEq, Repr

/-! ### The module -/

/-- The part of the module that serves local files, with what surrounds it. -/
structure LocalFiles where
  /-- `s_local_files` and `s_local_file_count`; null without files. -/
  files : Option (List LocalFile) := none
  serverLockId : UInt32 := 0
  serverHasLock : Bool := false
  /-- The request of which a piece is being read, and the file it is read from. -/
  reading : Option (ServerRequest × Path) := none
  /-- The locks of the server, with what was staged when they were taken. -/
  locks : UInt32 → Option (List Path) := fun _ ↦ none
  undefined : Bool := false
  history : List ServeEffect := []

namespace LocalFiles

/-- The list that is staged. -/
def staged (s : LocalFiles) : List LocalFile :=
  s.files.getD []

/-- The paths that are staged. -/
def paths (s : LocalFiles) : List Path :=
  s.staged.map LocalFile.path

/-- The list that a request's lock was taken for. -/
def lockedList (s : LocalFiles) (request : ServerRequest) : Option (List Path) :=
  if request.haveClipDataId then s.locks request.clipDataId else none

/-- `cliprdr_file_set_local_files`. -/
def setLocalFiles (s : LocalFiles) (strtod : List UInt8 → CDouble × ℕ) (json : List UInt8) :
    LocalFiles :=
  match stagedFiles strtod json with
  | some files => { s with files }
  | none => s

/-- `cliprdr_file_clear_local_files`. -/
def clearLocalFiles (s : LocalFiles) : LocalFiles :=
  { s with files := none }

/-- `cb_server_lock_clipboard_data`. -/
def serverLockClipboardData (s : LocalFiles) (clipDataId : UInt32) : LocalFiles :=
  { s with
    serverLockId := clipDataId
    serverHasLock := true
    locks := Function.update s.locks clipDataId (some s.paths) }

/-- `cb_server_unlock_clipboard_data`. -/
def serverUnlockClipboardData (s : LocalFiles) (clipDataId : UInt32) : LocalFiles :=
  { s with
    serverHasLock := s.serverHasLock && s.serverLockId != clipDataId
    locks := Function.update s.locks clipDataId none }

/-- The first part of `cb_server_file_contents_request`. -/
def serve (s : LocalFiles) (request : ServerRequest) (fileSystem : FileSystem) : ServeOutcome :=
  match s.files with
  | none => .answered .fail
  | some files =>
    if request.listIndex.toInt32.toInt ≥ files.length then .answered .fail
    else
      match files[request.listIndex.toNat]? with
      | none => .undefined
      | some entry =>
        if request.dwFlags &&& fileContentsSize ≠ 0 then
          match fileSystem entry.path with
          | none => .answered .fail
          | some contents => .answered (.ok entry.path (toBytes 8 contents.length))
        else if request.dwFlags &&& fileContentsRange ≠ 0 then
          match fileSystem entry.path with
          | none => .answered .fail
          | some _ => .opened entry.path
        else .answered .fail

/-- A request is answered. -/
def answer (s : LocalFiles) (request : ServerRequest) (answer : ServerAnswer) : LocalFiles :=
  { s with history := s.history ++ [.answered request answer (s.lockedList request)] }

/-- `cb_server_file_contents_request`, up to the place where a piece is read. -/
def serverFileContentsRequest (s : LocalFiles) (request : ServerRequest)
    (fileSystem : FileSystem) : LocalFiles :=
  match s.serve request fileSystem with
  | .undefined => { s with undefined := true }
  | .answered answer => s.answer request answer
  | .opened path => { s with reading := some (request, path) }

/-- `cb_server_file_contents_request`, from there on: the contents of the open file, unless it
cannot be read. -/
def finishReading (s : LocalFiles) (request : ServerRequest) (path : Path)
    (contents : Option (List UInt8)) : LocalFiles :=
  let s := { s with reading := none }
  match contents with
  | none => s.answer request .fail
  | some contents =>
    let data := (contents.drop request.offset).take request.cbRequested.toNat
    match s.staged[request.listIndex.toNat]? with
    | none => { s with undefined := true }
    | some entry =>
      let entry := { entry with bytesServed := entry.bytesServed + UInt64.ofNat data.length }
      let progress :=
        ServeEffect.progress request.listIndex entry.bytesServed entry.size s.staged.length
      { s with
        files := some (s.staged.set request.listIndex.toNat entry)
        history := s.history ++ [progress] }.answer request (.ok path data)

end LocalFiles

/-- What the command thread and the server do. -/
inductive LocalAction where
  | setLocalFiles (json : List UInt8)
  | clearLocalFiles
  | lock (clipDataId : UInt32)
  | unlock (clipDataId : UInt32)
  | request (request : ServerRequest) (fileSystem : FileSystem)
  | finishReading (contents : Option (List UInt8))

/-- The two threads. The channel thread handles one message of the server after the other. -/
def localSystem (strtod : List UInt8 → CDouble × ℕ) : StepSystem LocalFiles LocalAction where
  step s
    | .setLocalFiles json => some (s.setLocalFiles strtod json)
    | .clearLocalFiles => some s.clearLocalFiles
    | .lock clipDataId =>
      if s.reading.isNone then some (s.serverLockClipboardData clipDataId) else none
    | .unlock clipDataId =>
      if s.reading.isNone then some (s.serverUnlockClipboardData clipDataId) else none
    | .request request fileSystem =>
      if s.reading.isNone then some (s.serverFileContentsRequest request fileSystem) else none
    | .finishReading contents =>
      match s.reading with
      | none => none
      | some (request, path) => some (s.finishReading request path contents)

/-! ### What a lock is for -/

/-- The data, if any, is that of the file at an index of the list. -/
def ServerAnswer.From (paths : List Path) (i : ℕ) : ServerAnswer → Prop
  | fail => True
  | ok path _ => paths[i]? = some path

/-- The request is served from the file at an index of the list, or refused. -/
def ServeOutcome.From (paths : List Path) (i : ℕ) : ServeOutcome → Prop
  | undefined => False
  | answered answer => answer.From paths i
  | opened path => paths[i]? = some path

namespace LocalFiles

/-- Requests with an index that is an `int` are served from the list. -/
def Serves (s : LocalFiles) (paths : List Path) : Prop :=
  ∀ request fileSystem, request.listIndex.toNat < 2 ^ 31 →
    (s.serve request fileSystem).From paths request.listIndex.toNat

/-- **What a lock is for**: requests with a lock have been served from the list that it was taken
for, and would be now; and nothing undefined has happened or is about to. -/
structure Safe (s : LocalFiles) : Prop where
  defined : s.undefined = false
  answered : ∀ request answer paths, .answered request answer (some paths) ∈ s.history →
    answer.From paths request.listIndex.toNat
  locked : ∀ clipDataId paths, s.locks clipDataId = some paths → s.Serves paths
  reading : ∀ request path, s.reading = some (request, path) →
    request.listIndex.toNat < s.staged.length ∧
      ∀ paths, s.lockedList request = some paths → paths[request.listIndex.toNat]? = some path

/-- The pieces that are asked for under one lock, at one index, are from one file. -/
theorem Safe.path_eq {s : LocalFiles} (h : s.Safe) {request request' : ServerRequest}
    {path path' : Path} {data data' : List UInt8} {paths : List Path}
    (hmem : .answered request (.ok path data) (some paths) ∈ s.history)
    (hmem' : .answered request' (.ok path' data') (some paths) ∈ s.history)
    (hindex : request.listIndex = request'.listIndex) : path = path' := by
  have hfrom : paths[request.listIndex.toNat]? = some path := h.answered _ _ _ hmem
  have hfrom' : paths[request'.listIndex.toNat]? = some path' := h.answered _ _ _ hmem'
  rw [hindex] at hfrom
  exact Option.some.inj (hfrom.symm.trans hfrom')

/-- Files that may be staged: the first files of every list that is locked, and enough of them for
the piece that is being read. -/
def Allows (s : LocalFiles) (files : List LocalFile) : Prop :=
  (∀ clipDataId paths, s.locks clipDataId = some paths → files.map LocalFile.path <+: paths) ∧
    ∀ request path, s.reading = some (request, path) → request.listIndex.toNat < files.length

/-- **The steps that keep locks.** -/
def Careful (strtod : List UInt8 → CDouble × ℕ) (s : LocalFiles) : LocalAction → Prop
  | .setLocalFiles json => ∀ files, stagedFiles strtod json = some files → s.Allows (files.getD [])
  | .clearLocalFiles => s.Allows []
  | .request request _ =>
    s.reading = none → s.files ≠ none → request.listIndex.toNat < 2 ^ 31
  | _ => True

variable {s t : LocalFiles}

/-! ### Serving -/

theorem toInt_listIndex {index : UInt32} (h : index.toNat < 2 ^ 31) :
    index.toInt32.toInt = index.toNat := by
  have hsmall : 2 * index.toBitVec.toNat < 2 ^ 32 := show 2 * index.toNat < 2 ^ 32 by omega
  show index.toBitVec.toInt = (index.toBitVec.toNat : ℤ)
  rw [BitVec.toInt_eq_toNat_cond, if_pos hsmall]

theorem toInt_listIndex_neg {index : UInt32} (h : ¬index.toNat < 2 ^ 31) :
    index.toInt32.toInt < 0 := by
  have hlt := index.toNat_lt
  have hlarge : ¬2 * index.toBitVec.toNat < 2 ^ 32 := show ¬2 * index.toNat < 2 ^ 32 by omega
  show index.toBitVec.toInt < 0
  rw [BitVec.toInt_eq_toNat_cond, if_neg hlarge]
  show (index.toNat : ℤ) - 2 ^ 32 < 0
  omega

/-- A request for a piece of the file at an index. -/
def pieceRequest (i : ℕ) : ServerRequest :=
  ⟨0, UInt32.ofNat i, fileContentsRange, 0, 0, 0, false, 0⟩

theorem listIndex_pieceRequest {i : ℕ} (hi : i < 2 ^ 31) :
    (pieceRequest i).listIndex.toNat = i := by
  show (UInt32.ofNat i).toNat = i
  rw [UInt32.toNat_ofNat']
  exact Nat.mod_eq_of_lt (show i < 2 ^ 32 by omega)

theorem serve_pieceRequest {i : ℕ} {entry : LocalFile} (hentry : s.staged[i]? = some entry)
    (hi : i < 2 ^ 31) : s.serve (pieceRequest i) (fun _ ↦ some []) = .opened entry.path := by
  have hindex := listIndex_pieceRequest hi
  obtain ⟨hlt, -⟩ := List.getElem?_eq_some_iff.1 hentry
  rw [serve]
  cases hfiles : s.files with
  | none =>
    rw [staged, hfiles] at hentry
    cases hentry
  | some files =>
    rw [staged, hfiles] at hentry hlt
    dsimp only
    rw [toInt_listIndex (by omega), hindex, if_neg (by simpa using hlt)]
    rw [Option.getD_some] at hentry
    rw [hentry]
    exact (if_neg (show ¬fileContentsRange &&& fileContentsSize ≠ 0 by decide)).trans
      (if_pos (show fileContentsRange &&& fileContentsRange ≠ 0 by decide))

/-- A list serves its requests if what is staged is its beginning. -/
theorem serves_iff (hlength : s.staged.length < 2 ^ 31) {paths : List Path} :
    s.Serves paths ↔ s.paths <+: paths := by
  constructor
  · intro hserves
    refine List.prefix_iff_getElem?.2 fun i hi ↦ ?_
    rw [LocalFiles.paths, List.length_map] at hi
    have hentry : s.staged[i]? = some s.staged[i] := List.getElem?_eq_getElem hi
    have hindex := listIndex_pieceRequest (show i < 2 ^ 31 by omega)
    -- it is enough to ask for a piece of each file that is staged
    have hfrom := hserves (pieceRequest i) (fun _ ↦ some []) (by omega)
    rw [serve_pieceRequest hentry (by omega), hindex] at hfrom
    have hpath : paths[i]? = some s.staged[i].path := hfrom
    rw [hpath]
    exact congrArg some (List.getElem_map _).symm
  · intro hprefix request fileSystem hindex
    rw [serve]
    split
    · trivial
    · next files hfiles =>
      split
      · trivial
      · next hvalid =>
        rw [toInt_listIndex hindex, ge_iff_le, Int.ofNat_le, Nat.not_le] at hvalid
        have hentry : files[request.listIndex.toNat]? = some files[request.listIndex.toNat] :=
          List.getElem?_eq_getElem hvalid
        have hpath : paths[request.listIndex.toNat]? =
            some files[request.listIndex.toNat].path := by
          have hpaths : s.paths = files.map LocalFile.path := by
            rw [LocalFiles.paths, staged, hfiles, Option.getD_some]
          rw [hpaths] at hprefix
          rw [List.prefix_iff_getElem?.1 hprefix _ (by rwa [List.length_map]), List.getElem_map]
        rw [hentry]
        dsimp only
        split
        · split
          · trivial
          · exact hpath
        · split
          · split
            · trivial
            · exact hpath
          · trivial

/-- An entry beyond the list is read exactly for an index that is no `int`. -/
theorem serve_eq_undefined_iff (hlength : s.staged.length < 2 ^ 31) {request : ServerRequest}
    {fileSystem : FileSystem} :
    s.serve request fileSystem = .undefined ↔
      s.files ≠ none ∧ ¬request.listIndex.toNat < 2 ^ 31 := by
  constructor
  · intro hserve
    refine ⟨fun hfiles ↦ ?_, fun hindex ↦ ?_⟩
    · rw [serve, hfiles] at hserve
      cases hserve
    · have hfrom := (serves_iff hlength).2 (List.prefix_refl s.paths) request fileSystem hindex
      rw [hserve] at hfrom
      exact hfrom
  · rintro ⟨hfiles, hindex⟩
    obtain ⟨files, hfiles⟩ := Option.ne_none_iff_exists'.1 hfiles
    rw [staged, hfiles, Option.getD_some] at hlength
    have hnegative := toInt_listIndex_neg hindex
    rw [serve, hfiles]
    dsimp only
    rw [if_neg (by omega), List.getElem?_eq_none (by omega)]

/-- A file that is opened is staged. -/
theorem lt_length_of_serve_eq_opened {request : ServerRequest} {fileSystem : FileSystem}
    {path : Path} (hserve : s.serve request fileSystem = .opened path) :
    request.listIndex.toNat < s.staged.length := by
  rw [serve] at hserve
  split at hserve
  · cases hserve
  · next files hfiles =>
    split at hserve
    · cases hserve
    · split at hserve
      · cases hserve
      · next entry hentry =>
        rw [staged, hfiles]
        exact (List.getElem?_eq_some_iff.1 hentry).1

/-! ### One step -/

/-- Staging other files keeps locks exactly if they are allowed. -/
theorem safe_stage_iff (h : s.Safe) (files : Option (List LocalFile))
    (hlength : (files.getD []).length < 2 ^ 31) :
    Safe { s with files } ↔ s.Allows (files.getD []) := by
  have hserves (paths : List Path) : Serves { s with files } paths ↔
      (files.getD []).map LocalFile.path <+: paths :=
    serves_iff (s := { s with files }) hlength
  constructor
  · intro hsafe
    exact ⟨fun id paths hlock ↦ (hserves paths).1 (hsafe.locked id paths hlock),
      fun request path hreading ↦ (hsafe.reading request path hreading).1⟩
  · rintro ⟨hlocks, hreading⟩
    exact ⟨h.defined, h.answered, fun id paths hlock ↦ (hserves paths).2 (hlocks id paths hlock),
      fun request path hread ↦ ⟨hreading request path hread, (h.reading request path hread).2⟩⟩

/-- An answer that is right for its lock. -/
theorem Safe.answer (h : s.Safe) {request : ServerRequest} {answer : ServerAnswer}
    (hfrom : ∀ paths, s.lockedList request = some paths →
      answer.From paths request.listIndex.toNat) : (s.answer request answer).Safe := by
  refine ⟨h.defined, fun request' answer' paths hmem ↦ ?_, h.locked, h.reading⟩
  rcases List.mem_append.1 hmem with hold | hnew
  · exact h.answered request' answer' paths hold
  · obtain ⟨rfl, rfl, hlocked⟩ := ServeEffect.answered.inj (List.mem_singleton.1 hnew)
    exact hfrom paths hlocked.symm

/-- A request is served as its lock demands. -/
theorem Safe.from_serve (h : s.Safe) {request : ServerRequest} {fileSystem : FileSystem}
    (hindex : request.listIndex.toNat < 2 ^ 31) {paths : List Path}
    (hlocked : s.lockedList request = some paths) :
    (s.serve request fileSystem).From paths request.listIndex.toNat := by
  rw [lockedList] at hlocked
  split at hlocked
  · exact h.locked _ paths hlocked request fileSystem hindex
  · cases hlocked

/-- **A request** is handled safely exactly if its index is an `int` or nothing is staged. -/
theorem safe_request_iff (h : s.Safe) (hlength : s.staged.length < 2 ^ 31)
    (request : ServerRequest) (fileSystem : FileSystem) :
    (s.serverFileContentsRequest request fileSystem).Safe ↔
      (s.files ≠ none → request.listIndex.toNat < 2 ^ 31) := by
  have hdefined (hserve : s.serve request fileSystem ≠ .undefined) (hfiles : s.files ≠ none) :
      request.listIndex.toNat < 2 ^ 31 := by
    by_contra hindex
    exact hserve ((serve_eq_undefined_iff hlength).2 ⟨hfiles, hindex⟩)
  rw [serverFileContentsRequest]
  cases hserve : s.serve request fileSystem with
  | undefined =>
    obtain ⟨hfiles, hindex⟩ := (serve_eq_undefined_iff hlength).1 hserve
    exact iff_of_false (fun hsafe ↦ nomatch hsafe.defined) fun hlt ↦ hindex (hlt hfiles)
  | answered answer =>
    have hindex := hdefined (by rw [hserve]; exact nofun)
    refine iff_of_true (h.answer fun paths hlocked ↦ ?_) hindex
    cases hfiles : s.files with
    | none =>
      rw [serve, hfiles] at hserve
      obtain rfl := ServeOutcome.answered.inj hserve
      trivial
    | some files =>
      have hlt := hindex (by rw [hfiles]; exact nofun)
      have hfrom : (s.serve request fileSystem).From paths request.listIndex.toNat :=
        h.from_serve hlt hlocked
      rw [hserve] at hfrom
      exact hfrom
  | opened path =>
    have hindex := hdefined (by rw [hserve]; exact nofun)
    have hlt := lt_length_of_serve_eq_opened hserve
    refine iff_of_true ⟨h.defined, h.answered, h.locked, fun request' path' hread ↦ ?_⟩ hindex
    obtain ⟨rfl, rfl⟩ := Prod.mk.inj (Option.some.inj hread)
    refine ⟨hlt, fun paths hlocked ↦ ?_⟩
    have hfrom : (s.serve request fileSystem).From paths request.listIndex.toNat :=
      h.from_serve (by omega) hlocked
    rw [hserve] at hfrom
    exact hfrom

/-- **A piece that has been read** is answered as its lock demands. -/
theorem Safe.finishReading (h : s.Safe) {request : ServerRequest} {path : Path}
    (hreading : s.reading = some (request, path)) (hlength : s.staged.length < 2 ^ 31)
    (contents : Option (List UInt8)) : (s.finishReading request path contents).Safe := by
  obtain ⟨hlt, hpath⟩ := h.reading request path hreading
  have hidle : Safe { s with reading := none } := ⟨h.defined, h.answered, h.locked, nofun⟩
  unfold LocalFiles.finishReading
  cases contents with
  | none => exact hidle.answer fun _ _ ↦ trivial
  | some contents =>
    -- the list that is staged now is long enough for the index, whenever it was staged
    have hentry : s.staged[request.listIndex.toNat]? = some s.staged[request.listIndex.toNat] :=
      List.getElem?_eq_getElem hlt
    dsimp only
    split
    · next hnone => cases hnone.symm.trans hentry
    · next entry hsome =>
      have hpaths : (s.staged.set request.listIndex.toNat { entry with
          bytesServed := entry.bytesServed + UInt64.ofNat
            ((contents.drop request.offset).take request.cbRequested.toNat).length }).map
            LocalFile.path = s.paths :=
        map_set_of_eq hsome rfl
      refine Safe.answer ⟨?_, fun request' answer' paths hmem ↦ ?_, fun id paths hlocked ↦ ?_,
        fun _ _ hread ↦ ?_⟩ ?_
      · exact h.defined
      · rcases List.mem_append.1 hmem with hold | hnew
        · exact h.answered request' answer' paths hold
        · cases List.mem_singleton.1 hnew
      · have hprefix := (serves_iff hlength).1 (h.locked id paths hlocked)
        rw [← hpaths] at hprefix
        refine (serves_iff ?_).2 hprefix
        exact List.length_set.trans_lt hlength
      · cases hread
      · exact hpath

/-- A lock is taken or given back, whatever else is recorded. -/
theorem Safe.update (h : s.Safe) (hreading : s.reading = none) (clipDataId : UInt32)
    {value : Option (List Path)} (hserves : ∀ paths, value = some paths → s.Serves paths)
    (serverLockId : UInt32) (serverHasLock : Bool) :
    Safe { s with
      serverLockId
      serverHasLock
      locks := Function.update s.locks clipDataId value } := by
  refine ⟨h.defined, h.answered, fun id paths hlocked ↦ ?_, fun request path hread ↦ ?_⟩
  · have hupdate : Function.update s.locks clipDataId value id = some paths := hlocked
    by_cases hid : id = clipDataId
    · subst hid
      rw [Function.update_self] at hupdate
      exact hserves paths hupdate
    · rw [Function.update_of_ne hid] at hupdate
      exact h.locked id paths hupdate
  · cases hreading.symm.trans hread

/-- A lock is for what is staged. -/
theorem Safe.lock (h : s.Safe) (hreading : s.reading = none) (hlength : s.staged.length < 2 ^ 31)
    (clipDataId : UInt32) : (s.serverLockClipboardData clipDataId).Safe := by
  refine h.update hreading clipDataId (fun paths hpaths ↦ ?_) _ _
  obtain rfl := Option.some.inj hpaths
  exact (serves_iff hlength).2 (List.prefix_refl s.paths)

theorem Safe.unlock (h : s.Safe) (hreading : s.reading = none) (clipDataId : UInt32) :
    (s.serverUnlockClipboardData clipDataId).Safe := by
  refine h.update hreading clipDataId (fun paths hpaths ↦ ?_) _ _
  cases hpaths

theorem length_stagedFiles {strtod : List UInt8 → CDouble × ℕ} {json : List UInt8}
    {files : Option (List LocalFile)} (h : stagedFiles strtod json = some files) :
    (files.getD []).length < 2 ^ 31 := by
  rw [stagedFiles] at h
  split at h
  · next items _ =>
    split at h
    · obtain rfl := Option.some.inj h
      decide
    · next hlength =>
      obtain rfl := Option.some.inj h
      have hle := List.length_filterMap_le localFileOf items
      rw [not_or, maxLocalFiles] at hlength
      rw [Option.getD_some]
      omega
  · cases h

/-- The list that is staged stays short. -/
theorem length_staged_step {strtod : List UInt8 → CDouble × ℕ} {a : LocalAction}
    (h : s.staged.length < 2 ^ 31) (hstep : (localSystem strtod).step s a = some t) :
    t.staged.length < 2 ^ 31 := by
  cases a with
  | setLocalFiles json =>
    obtain rfl := Option.some.inj hstep
    rw [setLocalFiles]
    split
    · next files hstaged => exact length_stagedFiles hstaged
    · exact h
  | clearLocalFiles =>
    obtain rfl := Option.some.inj hstep
    exact Nat.two_pow_pos 31
  | lock clipDataId =>
    obtain ⟨-, heq⟩ := Option.ite_none_right_eq_some.1 hstep
    obtain rfl := Option.some.inj heq
    exact h
  | unlock clipDataId =>
    obtain ⟨-, heq⟩ := Option.ite_none_right_eq_some.1 hstep
    obtain rfl := Option.some.inj heq
    exact h
  | request request fileSystem =>
    obtain ⟨-, heq⟩ := Option.ite_none_right_eq_some.1 hstep
    obtain rfl := Option.some.inj heq
    rw [serverFileContentsRequest]
    split
    · exact h
    · exact h
    · exact h
  | finishReading contents =>
    rw [localSystem] at hstep
    dsimp only at hstep
    split at hstep
    · cases hstep
    · obtain rfl := Option.some.inj hstep
      unfold LocalFiles.finishReading
      cases contents with
      | none => exact h
      | some contents =>
        dsimp only
        split
        · exact h
        · exact List.length_set.trans_lt h

end LocalFiles

open LocalFiles

/-- **The exact condition.** In all states of a run requests with a lock have been served, and would
be served, from the list that the lock was taken for, and nothing undefined has happened, exactly if
all its steps are careful: while lists are locked, only their first files are staged; while a piece
is read, so many that the list does not end before it; and no request has an index from `2 ^ 31` on.
-/
theorem lockedList_iff (strtod : List UInt8 → CDouble × ℕ) (actions : List LocalAction) :
    (∀ pre post s, actions = pre ++ post → (localSystem strtod).run {} pre = some s → s.Safe) ↔
      (localSystem strtod).StepsMeet (Careful strtod) {} actions := by
  refine (StepSystem.stepsMeet_iff_forall_prefix
    (I := fun s : LocalFiles ↦ s.staged.length < 2 ^ 31) (P := Safe)
    (fun s a t hlength hstep ↦ length_staged_step hlength hstep) ?_ ?_ ?_ ?_).symm
  · intro s a _ hstuck
    cases a with
    | setLocalFiles json => cases hstuck
    | clearLocalFiles => cases hstuck
    | request request fileSystem =>
      intro hidle
      rw [localSystem] at hstuck
      dsimp only at hstuck
      rw [hidle, if_pos (by rfl)] at hstuck
      cases hstuck
    | _ => trivial
  · intro s a t hlength h hstep
    cases a with
    | setLocalFiles json =>
      obtain rfl := Option.some.inj hstep
      rw [setLocalFiles]
      cases hstaged : stagedFiles strtod json with
      | none => exact iff_of_true h fun files hfiles ↦ by cases hstaged.symm.trans hfiles
      | some files =>
        rw [safe_stage_iff h files (length_stagedFiles hstaged)]
        refine ⟨fun hallows files' hfiles ↦ ?_, fun hcareful ↦ hcareful files hstaged⟩
        obtain rfl := Option.some.inj (hstaged.symm.trans hfiles)
        exact hallows
    | clearLocalFiles =>
      obtain rfl := Option.some.inj hstep
      exact safe_stage_iff h none (Nat.two_pow_pos 31)
    | lock clipDataId =>
      obtain ⟨hidle, heq⟩ := Option.ite_none_right_eq_some.1 hstep
      obtain rfl := Option.some.inj heq
      exact iff_of_true (h.lock (Option.isNone_iff_eq_none.1 hidle) hlength clipDataId) trivial
    | unlock clipDataId =>
      obtain ⟨hidle, heq⟩ := Option.ite_none_right_eq_some.1 hstep
      obtain rfl := Option.some.inj heq
      exact iff_of_true (h.unlock (Option.isNone_iff_eq_none.1 hidle) clipDataId) trivial
    | request request fileSystem =>
      obtain ⟨hidle, heq⟩ := Option.ite_none_right_eq_some.1 hstep
      obtain rfl := Option.some.inj heq
      rw [safe_request_iff h hlength]
      exact ⟨fun hcareful _ ↦ hcareful, fun hcareful ↦ hcareful (Option.isNone_iff_eq_none.1 hidle)⟩
    | finishReading contents =>
      rw [localSystem] at hstep
      dsimp only at hstep
      split at hstep
      · cases hstep
      · next request path hreading =>
        obtain rfl := Option.some.inj hstep
        exact iff_of_true (h.finishReading hreading hlength contents) trivial
  · decide
  · exact ⟨rfl, nofun, nofun, nofun⟩

/-- A request for the first four bytes of the first file, under the lock 7. -/
def firstPiece : ServerRequest :=
  ⟨1, 0, fileContentsRange, 0, 0, 4, true, 7⟩

/-- One file is staged, the server locks the clipboard, another file is staged, and the server
reads. -/
def restagedUnderLock : List LocalAction :=
  [.setLocalFiles (utf8 "[\x7b\"path\":\"/a\",\"name\":\"a\"\x7d]"),
    .lock 7,
    .setLocalFiles (utf8 "[\x7b\"path\":\"/b\",\"name\":\"b\"\x7d]"),
    .request firstPiece fun _ ↦ some [1, 2],
    .finishReading (some [1, 2])]

/-- **The file staged later is served.** -/
theorem restagedUnderLock_served :
    ∃ s, (localSystem fun _ ↦ (.infinite false, 0)).run {} restagedUnderLock = some s ∧
      .answered firstPiece (.ok (utf8 "/b") [1, 2]) (some [utf8 "/a"]) ∈ s.history ∧ ¬s.Safe := by
  have hanswered : ∃ s,
      (localSystem fun _ ↦ (.infinite false, 0)).run {} restagedUnderLock = some s ∧
        s.history = [.progress 0 2 0 1,
          .answered firstPiece (.ok (utf8 "/b") [1, 2]) (some [utf8 "/a"])] :=
    ⟨_, rfl, by decide⟩
  obtain ⟨s, hrun, hhistory⟩ := hanswered
  have hmem : .answered firstPiece (.ok (utf8 "/b") [1, 2]) (some [utf8 "/a"]) ∈ s.history := by
    rw [hhistory]
    exact List.mem_cons_of_mem _ List.mem_cons_self
  refine ⟨s, hrun, hmem, fun hsafe ↦ ?_⟩
  have hfrom : [utf8 "/a"][0]? = some (utf8 "/b") := hsafe.answered _ _ _ hmem
  exact absurd hfrom (by decide)

end RdpMcp
