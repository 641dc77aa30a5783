import Mathlib.Logic.Function.Basic
import RdpMcp.Foundations.LittleEndian
import RdpMcp.Json.Value
import RdpMcp.Native.Cliprdr

/-!
# File downloads from the remote clipboard

When the server announces files, their descriptors are asked for; when a download is requested, the
files are fetched one after the other into a directory: the size of a file first, then its contents
piece by piece, each piece when the one before it has arrived. `current` is the cursor of this
queue.

Answers are matched **by stream identifier against all entries**, wherever the cursor is, and four
branches of the handler advance the cursor by one. Every entry starts with the identifier 0, which
no request has, and keeps the identifier of its last request for good.

All functions run under the module's lock, so each is one step; the one place where the lock is
released in between, around the unlocking of the server's clipboard, is the end of its function.
What the channel and the file system answer are parameters of a call: whether a request can be sent,
whether a file can be opened, how much of the data is written. Allocations succeed. The history of
what the module has done is part of its state, and so are the requests that the server has accepted
and not answered.
-/

open LittleEndian

namespace RdpMcp

/-! ### Descriptors and paths -/

/-- A path of the local file system. -/
abbrev Path := List UInt8

/-- `FILEDESCRIPTORW`: its attributes, and its name in UTF-8 if it can be converted. -/
structure FileDescriptor where
  attributes : UInt32
  utf8Name : Option Path
  deriving DecidableEq, Repr

/-- `FILE_ATTRIBUTE_DIRECTORY`. -/
def fileAttributeDirectory : UInt32 := 0x10

def FileDescriptor.isDirectory (descriptor : FileDescriptor) : Bool :=
  descriptor.attributes &&& fileAttributeDirectory ≠ 0

/-- A slash of either kind. -/
def isSeparator (b : UInt8) : Bool :=
  b == 0x2f || b == 0x5c

/-- `normalize_path_separators`, where the separator is the slash. -/
def normalizePathSeparators (path : Path) : Path :=
  path.map fun b ↦ if b = 0x5c then 0x2f else b

/-- The second half of `sanitize_filename`: components `..` become `__`. -/
def replaceDots (afterSeparator : Bool) : Path → Path
  | 0x2e :: 0x2e :: rest =>
    if afterSeparator && rest.head?.all isSeparator then 0x5f :: 0x5f :: replaceDots false rest
    else 0x2e :: replaceDots false (0x2e :: rest)
  | b :: rest => b :: replaceDots (isSeparator b) rest
  | [] => []

/-- `sanitize_filename`. -/
def sanitizeFilename (name : Path) : Path :=
  replaceDots true (name.dropWhile isSeparator)

/-- The path that a file is downloaded to. -/
def tempPath (tempDir : Path) (descriptor : FileDescriptor) : Path :=
  tempDir ++ 0x2f :: sanitizeFilename
    (normalizePathSeparators (descriptor.utf8Name.getD (utf8 "unknown")))

/-- The name that is reported. -/
def reportedName (descriptor : Option FileDescriptor) : Path :=
  ((descriptor.bind FileDescriptor.utf8Name).map normalizePathSeparators).getD []

/-! ### Requests, answers and reports -/

/-- `FILECONTENTS_SIZE` or `FILECONTENTS_RANGE`. -/
inductive ContentsKind where
  | size
  | range
  deriving DecidableEq, Repr

/-- `CLIPRDR_FILE_CONTENTS_REQUEST`. -/
structure ContentsRequest where
  streamId : UInt32
  listIndex : ℕ
  kind : ContentsKind
  positionLow : UInt32
  positionHigh : UInt32
  cbRequested : UInt32
  haveClipDataId : Bool
  clipDataId : UInt32
  deriving DecidableEq, Repr

/-- The position that is asked for. -/
def ContentsRequest.position (request : ContentsRequest) : ℕ :=
  request.positionHigh.toNat * 2 ^ 32 + request.positionLow.toNat

/-- `CLIPRDR_FILE_CONTENTS_RESPONSE`: `cbRequested` is the length of the data. -/
structure ContentsResponse where
  streamId : UInt32
  ok : Bool
  data : Option (List UInt8)
  deriving DecidableEq, Repr

/-- The size that an answer carries. -/
def ContentsResponse.size (response : ContentsResponse) : UInt64 :=
  match response.data with
  | none => 0
  | some data =>
    if 8 ≤ data.length then UInt64.ofNat (ofBytes (data.take 8))
    else if 4 ≤ data.length then UInt64.ofNat (ofBytes (data.take 4))
    else 0

/-- What the module does: the history of a run. -/
inductive FileEffect where
  /-- A download begins. -/
  | started
  /-- A request is handed to the channel, which takes it or not. -/
  | request (request : ContentsRequest) (accepted : Bool)
  /-- CLIPBOARD_FILE_DONE, with what the temp file contains at that point. -/
  | done (fileIndex : ℕ) (isDirectory : Bool) (tempPath name : Path) (size : UInt64)
      (contents : Option (List UInt8))
  /-- CLIPBOARD_FILE_ERROR. -/
  | error (fileIndex : ℕ) (text : String)
  /-- CLIPBOARD_FILE_PROGRESS. -/
  | progress (fileIndex : ℕ) (transferred total : UInt64) (files : ℕ)
  /-- The queue is finished. -/
  | finished
  deriving DecidableEq, Repr

/-! ### The module -/

/-- `FILE_CONTENTS_CHUNK_SIZE`. -/
def chunkSize : UInt32 := 256 * 1024

/-- `MAX_STREAM_ID`. -/
def maxStreamId : UInt32 := 0x7fffffff

/-- `DownloadEntry`. -/
structure DownloadEntry where
  fileIndex : ℕ
  tempPath : Path
  streamId : UInt32 := 0
  totalSize : UInt64 := 0
  bytesReceived : UInt64 := 0
  /-- `fp` is not null. -/
  fp : Bool := false
  sizeReceived : Bool := false
  complete : Bool := false
  deriving DecidableEq, Repr

/-- The state of the module, as `cliprdr_file_init` leaves it, and its surroundings. -/
structure CliprdrFile where
  /-- `s_cliprdr` is not null. -/
  cliprdr : Bool := false
  descriptors : List FileDescriptor := []
  downloads : List DownloadEntry := []
  current : ℕ := 0
  downloading : Bool := false
  nextStreamId : UInt32 := 1
  ourLockId : UInt32 := 0
  ourLockActive : Bool := false
  nextLockId : UInt32 := 100
  /-- The local files. -/
  files : Path → Option (List UInt8) := fun _ ↦ none
  /-- What the server has accepted and not answered. -/
  requests : List ContentsRequest := []
  history : List FileEffect := []

/-- The answers of the channel and the file system during one call. -/
structure Surroundings where
  /-- `ClientFileContentsRequest` succeeds for a file. -/
  accepts : ℕ → Bool
  /-- `fopen` succeeds. -/
  opens : Bool
  /-- `fwrite` writes so many bytes, or all. -/
  writes : ℕ

namespace CliprdrFile

/-- Add to the history. -/
def emit (s : CliprdrFile) (effect : FileEffect) : CliprdrFile :=
  { s with history := s.history ++ [effect] }

def setEntry (s : CliprdrFile) (i : ℕ) (entry : DownloadEntry) : CliprdrFile :=
  { s with downloads := s.downloads.set i entry }

/-- `s_download_current++`. -/
def advance (s : CliprdrFile) : CliprdrFile :=
  { s with current := s.current + 1 }

def writeFile (s : CliprdrFile) (path : Path) (contents : List UInt8) : CliprdrFile :=
  { s with files := Function.update s.files path (some contents) }

/-- Report an entry as done. -/
def emitDone (s : CliprdrFile) (i : ℕ) (entry : DownloadEntry) (size : UInt64) : CliprdrFile :=
  s.emit (.done entry.fileIndex (s.descriptors[i]?.any FileDescriptor.isDirectory) entry.tempPath
    (reportedName s.descriptors[i]?) size (s.files entry.tempPath))

/-- `free_downloads`. -/
def freeDownloads (s : CliprdrFile) : CliprdrFile :=
  { s with downloads := [], current := 0, downloading := false }

/-- The identifier behind `streamId`. -/
def streamIdAfter (streamId : UInt32) : UInt32 :=
  if streamId + 1 > maxStreamId then 1 else streamId + 1

/-- The request for a piece of a file, or for its size. -/
def contentsRequest (s : CliprdrFile) (fileIndex : ℕ) (kind : ContentsKind) (offset : UInt64)
    (cbRequested : UInt32) : ContentsRequest where
  streamId := s.nextStreamId
  listIndex := fileIndex
  kind
  positionLow := offset.toUInt32
  positionHigh := (offset >>> 32).toUInt32
  cbRequested
  haveClipDataId := s.ourLockActive
  clipDataId := s.ourLockId

/-- The entry of a file remembers the identifier of its last request. -/
def track (s : CliprdrFile) (fileIndex : ℕ) : CliprdrFile :=
  { s with
    nextStreamId := streamIdAfter s.nextStreamId
    downloads := s.downloads.modify fileIndex fun entry ↦
      { entry with streamId := s.nextStreamId } }

/-- `send_file_contents_request`, and whether it succeeds. -/
def sendFileContentsRequest (s : CliprdrFile) (fileIndex : ℕ) (kind : ContentsKind)
    (offset : UInt64) (cbRequested : UInt32) (accepted : Bool) : Bool × CliprdrFile :=
  if !s.cliprdr then (false, s)
  else
    let request := s.contentsRequest fileIndex kind offset cbRequested
    let s := (s.track fileIndex).emit (.request request accepted)
    (accepted, if accepted then { s with requests := s.requests ++ [request] } else s)

/-- The size of the first piece that is asked for. -/
def firstChunk (entry : DownloadEntry) : UInt32 :=
  let chunk := (entry.totalSize - entry.bytesReceived).toUInt32
  if chunk > chunkSize then chunkSize else chunk

/-- The size of the next piece that is asked for. -/
def nextChunk (entry : DownloadEntry) : UInt32 :=
  let remaining := entry.totalSize - entry.bytesReceived
  (if remaining > chunkSize.toUInt64 then chunkSize.toUInt64 else remaining).toUInt32

/-- The queue is finished; the server's clipboard is unlocked. -/
def finish (s : CliprdrFile) : CliprdrFile :=
  { s with
    downloading := false
    ourLockActive := s.ourLockActive && !s.cliprdr }.emit .finished

def sizeRequestFailed : String :=
  "Size request failed"

/-- The loop of `start_next_download`, over the entries that are left. -/
def startNext (accepts : ℕ → Bool) : ℕ → CliprdrFile → CliprdrFile
  | 0, s => s.finish
  | n + 1, s =>
    match s.downloads[s.current]? with
    | none => s.finish
    | some entry =>
      if entry.complete then startNext accepts n s.advance
      else if s.descriptors[s.current]?.any FileDescriptor.isDirectory then
        let s := s.setEntry s.current { entry with complete := true }
        startNext accepts n (s.emitDone s.current entry 0).advance
      else if !entry.sizeReceived then
        let (sent, s) :=
          s.sendFileContentsRequest entry.fileIndex .size 0 8 (accepts entry.fileIndex)
        if sent then s
        else
          let s := { s with
            downloads := s.downloads.modify s.current fun entry ↦ { entry with complete := true } }
          startNext accepts n (s.emit (.error entry.fileIndex sizeRequestFailed)).advance
      else
        (s.sendFileContentsRequest entry.fileIndex .range entry.bytesReceived (firstChunk entry)
          (accepts entry.fileIndex)).2

/-- `start_next_download`. -/
def startNextDownload (s : CliprdrFile) (accepts : ℕ → Bool) : CliprdrFile :=
  startNext accepts (s.downloads.length - s.current) s

/-- The end of an entry, whose last state is given: the cursor advances and the queue goes on. -/
def finishEntry (s : CliprdrFile) (i : ℕ) (entry : DownloadEntry)
    (report : CliprdrFile → CliprdrFile) (accepts : ℕ → Bool) : CliprdrFile :=
  (report (s.setEntry i { entry with complete := true })).advance.startNextDownload accepts

/-- The size of a file has arrived. -/
def receiveSize (s : CliprdrFile) (i : ℕ) (entry : DownloadEntry) (size : UInt64)
    (surroundings : Surroundings) : CliprdrFile :=
  let entry := { entry with totalSize := size, sizeReceived := true }
  if size = 0 then
    let s := if surroundings.opens then s.writeFile entry.tempPath [] else s
    s.finishEntry i entry (fun s ↦ s.emitDone i entry 0) surroundings.accepts
  else if surroundings.opens then
    ((s.writeFile entry.tempPath []).setEntry i { entry with fp := true }).startNextDownload
      surroundings.accepts
  else
    s.finishEntry i entry (fun s ↦ s.emit (.error entry.fileIndex "Cannot open temp file"))
      surroundings.accepts

/-- A piece of a file has arrived. -/
def receiveRange (s : CliprdrFile) (i : ℕ) (entry : DownloadEntry) (data : List UInt8)
    (surroundings : Surroundings) : CliprdrFile :=
  let written := data.take surroundings.writes
  let entry := { entry with
    bytesReceived := entry.bytesReceived + UInt64.ofNat written.length }
  let s := s.writeFile entry.tempPath ((s.files entry.tempPath).getD [] ++ written)
  let s := s.emit
    (.progress entry.fileIndex entry.bytesReceived entry.totalSize s.downloads.length)
  if entry.bytesReceived ≥ entry.totalSize then
    s.finishEntry i { entry with fp := false } (fun s ↦ s.emitDone i entry entry.totalSize)
      surroundings.accepts
  else
    ((s.setEntry i entry).sendFileContentsRequest entry.fileIndex .range entry.bytesReceived
      (nextChunk entry) (surroundings.accepts entry.fileIndex)).2

/-- An answer for an entry. -/
def receive (s : CliprdrFile) (i : ℕ) (entry : DownloadEntry) (response : ContentsResponse)
    (surroundings : Surroundings) : CliprdrFile :=
  if !response.ok then
    s.finishEntry i entry (fun s ↦ s.emit (.error entry.fileIndex "Server returned failure"))
      surroundings.accepts
  else if !entry.sizeReceived then s.receiveSize i entry response.size surroundings
  else
    match response.data with
    | none | some [] => s
    | some data => if entry.fp then s.receiveRange i entry data surroundings else s

/-- The first entry with a stream identifier. -/
def entryOf (s : CliprdrFile) (streamId : UInt32) : Option (ℕ × DownloadEntry) :=
  (s.downloads.findIdx? fun entry ↦ entry.streamId == streamId).bind fun i ↦
    s.downloads[i]?.map fun entry ↦ (i, entry)

/-- `cb_server_file_contents_response`. -/
def fileContentsResponse (s : CliprdrFile) (response : ContentsResponse)
    (surroundings : Surroundings) : CliprdrFile :=
  if !s.downloading || s.downloads.isEmpty then s
  else
    match s.entryOf response.streamId with
    | none => s
    | some (i, entry) => s.receive i entry response surroundings

/-- `cliprdr_file_channel_connected`. -/
def channelConnected (s : CliprdrFile) : CliprdrFile :=
  { s with cliprdr := true }

/-- `cliprdr_file_channel_disconnected`. -/
def channelDisconnected (s : CliprdrFile) : CliprdrFile :=
  { s with cliprdr := false, ourLockActive := false }.freeDownloads

/-- `cliprdr_file_server_has_files`, without its request for the descriptors. -/
def serverHasFiles (s : CliprdrFile) : CliprdrFile :=
  { s with
    descriptors := []
    ourLockId := s.nextLockId
    nextLockId := s.nextLockId + 1
    ourLockActive := true }.freeDownloads

/-- `cliprdr_file_handle_fgd_response`; no descriptors if they cannot be parsed. -/
def handleFgdResponse (s : CliprdrFile) (descriptors : List FileDescriptor) : CliprdrFile :=
  { s with descriptors }

/-- The entries of a download. -/
def newDownloads (tempDir : Path) (descriptors : List FileDescriptor) : List DownloadEntry :=
  descriptors.mapIdx fun i descriptor ↦
    { fileIndex := i, tempPath := tempPath tempDir descriptor }

/-- `cliprdr_file_request_download`. -/
def requestDownload (s : CliprdrFile) (tempDir : Path) (accepts : ℕ → Bool) : CliprdrFile :=
  if !s.cliprdr || s.descriptors.isEmpty then s
  else
    ({ s.freeDownloads with
      downloads := newDownloads tempDir s.descriptors
      downloading := true }.emit .started).startNextDownload accepts

end CliprdrFile

/-! ### The two clipboard modules -/

/-- The clipboard channel with its file module. -/
structure Clipboard where
  channel : Cliprdr := {}
  file : CliprdrFile := {}

/-- A call of the clipboard modules, other than an answer with the contents of a file. -/
inductive ClipboardCall where
  | channelConnected
  | channelDisconnected
  | monitorReady
  | formatList (formats : List ClipFormat) (acknowledged sent : Bool)
  | dataResponse (response : DataResponse)
  | requestDownload (tempDir : Path) (accepts : ℕ → Bool)

namespace Clipboard

/-- Forget what an answer would be taken for. -/
def clearPending (s : Clipboard) : Clipboard :=
  { s with channel := { s.channel with pendingFgd := false } }

variable (parseFileList : List UInt8 → List FileDescriptor)

/-- One call. -/
def call (s : Clipboard) : ClipboardCall → Clipboard
  | .channelConnected => { s.clearPending with file := s.file.channelConnected }
  | .channelDisconnected => { s.clearPending with file := s.file.channelDisconnected }
  | .monitorReady => s.clearPending
  | .formatList formats acknowledged sent =>
    { s with
      channel := s.channel.formatList formats acknowledged sent
      file :=
        if acknowledged ∧ (offerOf formats).fgdFormatId ≠ 0 then s.file.serverHasFiles else s.file }
  | .dataResponse response =>
    let (handled, channel) := s.channel.formatDataResponse response
    { s with
      channel := { channel with outstanding := channel.outstanding.tail }
      file :=
        match handled with
        | some (.files data) => s.file.handleFgdResponse (parseFileList data)
        | _ => s.file }
  | .requestDownload tempDir accepts => { s with file := s.file.requestDownload tempDir accepts }

end Clipboard

end RdpMcp
