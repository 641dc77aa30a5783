import RdpMcp.Native.Descriptors
import RdpMcp.Native.LocalClipboard

/-!
# What is pasted

A format list says what kind of data there is; the data is handed out when the server asks for it,
at any later time. A request for the identifier of the descriptors is answered with those of the
files that are staged by then, one for `CF_UNICODETEXT` with the text that is stored by then, and
anything else with a failure.

Between an announcement and the request much may happen. Still **a text that is pasted is the one
that was set last** (`text_pasted`): what is stored is that text or nothing, and it is there as long
as the last list announces text. **Files that are pasted are the ones staged last**, under the
identifier of the list that announced them, unless the server has offered files of its own since
(`files_pasted`): its identifier takes the place of ours. No server can have the identifier of the
descriptors coincide with `CF_UNICODETEXT`.

Both results are about what a client of the same kind makes of the answer. The conversions and the
format of descriptors on the wire are libraries.
-/

open LittleEndian CheckedBuffer

namespace RdpMcp

/-! ### Requests -/

/-- The libraries: the conversions, `cliprdr_serialize_file_list` and `cliprdr_parse_file_list`. -/
structure ClipLibrary where
  conversions : Conversions
  serializeFileList : List FileDescriptorW → Option (List UInt8)
  parseFileList : List UInt8 → List FileDescriptorW

/-- **What is relied on.** -/
structure ClipLibrary.Faithful (library : ClipLibrary) : Prop where
  conversions : library.conversions.Faithful
  parse : ∀ descriptors data, library.serializeFileList descriptors = some data →
    data ≠ [] ∧ library.parseFileList data = descriptors

def DataResponse.fail : DataResponse :=
  ⟨false, none⟩

namespace LocalClipboard

variable (library : ClipLibrary)

/-- The files that are staged. -/
def staged (s : LocalClipboard) : List LocalFile :=
  s.localFiles.getD []

/-- `cliprdr_file_handle_fgd_request`. -/
def handleFgdRequest (s : LocalClipboard) : DataResponse :=
  if s.hasLocalFiles then
    match library.serializeFileList (s.staged.map (LocalFile.descriptor library.conversions)) with
    | some data => ⟨true, some data⟩
    | none => .fail
  else .fail

/-- `cb_server_format_data_request`; the length of the data is a `UINT32`. -/
def formatDataRequest (s : LocalClipboard) (requestedFormatId : UInt32) : DataResponse :=
  if s.fgdFormatId ≠ 0 ∧ requestedFormatId = s.fgdFormatId then s.handleFgdRequest library
  else
    match s.clientText with
    | none => .fail
    | some text =>
      if requestedFormatId = cfUnicodeText ∧ text ≠ [] then
        match library.conversions.toWChar text with
        | some (unit :: units) =>
          let bytes := wcharBytes (unit :: units ++ [0])
          ⟨true, some (bytes.take (bytes.length % 2 ^ 32))⟩
        | _ => .fail
      else .fail

end LocalClipboard

/-- The text of an answer that is taken for text, as it is passed on in CLIPBOARD_TEXT: the end of
`cb_server_format_data_response`. -/
def receivedText (conversions : Conversions) (data : List UInt8) : Option (List UInt8) :=
  let units := wchars data
  let units := if units.getLast? = some 0 then units.dropLast else units
  if units = [] then none else (conversions.toUtf8 units).filter (· ≠ [])

/-! ### The latest text -/

/-- The text that has been set last, after one more command. It does not outlive the channel. -/
def ClipboardCommand.latest (text : Option (List UInt8)) : ClipboardCommand → Option (List UInt8)
  | clipboardSet live new _ => if live ∧ new ≠ [] then some new else text
  | monitorReady _ => none
  | _ => text

/-- The text that has been set last. -/
def latestText (commands : List ClipboardCommand) : Option (List UInt8) :=
  commands.foldl ClipboardCommand.latest none

namespace LocalClipboard

variable {strtod : List UInt8 → CDouble × ℕ} {s t : LocalClipboard} {text : Option (List UInt8)}

/-- What is stored is a text or nothing; it is that text while the last list announces text. And the
identifier of the descriptors is not that of text. -/
structure Holds (s : LocalClipboard) (text : Option (List UInt8)) : Prop where
  stored : s.clientText = none ∨ s.clientText = text
  announced : lastAnnounced s.history = some .text → s.clientText = text
  fgdFormatId_ne : s.fgdFormatId ≠ cfUnicodeText

theorem fgdFormatId_offerOf_ne (formats : List ClipFormat) :
    (offerOf formats).fgdFormatId ≠ cfUnicodeText := by
  have hadd (offer : Offer) (hoffer : offer.fgdFormatId ≠ cfUnicodeText) :
      (formats.foldl Offer.add offer).fgdFormatId ≠ cfUnicodeText := by
    induction formats generalizing offer with
    | nil => exact hoffer
    | cons format formats ih =>
      refine ih _ ?_
      rw [Offer.add]
      split_ifs with hunicode
      · exact hoffer
      · exact hoffer
      · exact hunicode
      · exact hoffer
  exact hadd {} (by decide)

/-- The identifier of the descriptors when files are announced. -/
def announcedId (s : LocalClipboard) : UInt32 :=
  if s.fgdFormatId = 0 then 0xC0BC else s.fgdFormatId

theorem announces_cases (s : LocalClipboard) :
    (s.hasLocalFiles = true ∧ s.announces = .files s.announcedId) ∨
      (s.hasLocalFiles = false ∧ s.announces = .text) := by
  cases hfiles : s.hasLocalFiles with
  | true => exact .inl ⟨rfl, if_pos hfiles⟩
  | false => exact .inr ⟨rfl, announces_eq_text hfiles⟩

/-- **What sending a list can do**: nothing, if it cannot be sent now; otherwise it announces the
files, under an identifier that is kept, or text. -/
theorem sendFormatListLocked_cases (s : LocalClipboard) (bypassLimits : Bool) (ticks : Ticks) :
    s.sendFormatListLocked bypassLimits ticks = s ∨
      (s.hasLocalFiles = true ∧
        (s.sendFormatListLocked bypassLimits ticks).history =
          .formatList (.files s.announcedId) :: s.history ∧
        (s.sendFormatListLocked bypassLimits ticks).fgdFormatId = s.announcedId) ∨
      (s.hasLocalFiles = false ∧
        (s.sendFormatListLocked bypassLimits ticks).history = .formatList .text :: s.history ∧
        (s.sendFormatListLocked bypassLimits ticks).fgdFormatId = s.fgdFormatId) := by
  rw [sendFormatListLocked]
  split
  case isTrue => exact .inl rfl
  case isFalse =>
    split
    case isTrue => exact .inl rfl
    case isFalse =>
      dsimp only
      rcases announces_cases s with ⟨hfiles, heq⟩ | ⟨hfiles, heq⟩ <;> rw [heq]
      · exact .inr (.inl ⟨hfiles, rfl, rfl⟩)
      · exact .inr (.inr ⟨hfiles, rfl, rfl⟩)

theorem announcedId_ne (h : s.fgdFormatId ≠ cfUnicodeText) : s.announcedId ≠ cfUnicodeText := by
  rw [announcedId]
  split_ifs
  · decide
  · exact h

/-- A list leaves the text where it is. -/
theorem Holds.sendFormatListLocked (h : s.Holds text) (hstored : s.clientText = text)
    (bypassLimits : Bool) (ticks : Ticks) :
    (s.sendFormatListLocked bypassLimits ticks).Holds text := by
  have hkept := (kept_sendFormatListLocked s bypassLimits ticks).clientText
  refine ⟨.inr (hkept.trans hstored), fun _ ↦ hkept.trans hstored, ?_⟩
  rcases sendFormatListLocked_cases s bypassLimits ticks with heq | ⟨-, -, heq⟩ | ⟨-, -, heq⟩ <;>
    rw [heq]
  · exact h.fgdFormatId_ne
  · exact announcedId_ne h.fgdFormatId_ne
  · exact h.fgdFormatId_ne

/-- A text that is set is stored. -/
theorem Holds.setText (h : s.Holds text) {new : List UInt8} (hne : new ≠ []) (ticks : Ticks) :
    (s.setText new ticks).Holds (some new) := by
  have hstore : (s.store new).Holds (some new) :=
    ⟨.inr rfl, fun _ ↦ rfl, h.fgdFormatId_ne⟩
  rcases setText_cases s new ticks with ⟨hnil, -⟩ | ⟨hduplicate, heq⟩ | ⟨-, -, ⟨-, heq⟩ | ⟨-, heq⟩⟩
  · exact absurd hnil hne
  · rw [heq]
    exact ⟨.inr hduplicate.2.2, fun _ ↦ hduplicate.2.2, h.fgdFormatId_ne⟩
  · rw [heq]
    exact hstore
  · rw [heq]
    exact hstore.sendFormatListLocked rfl _ _

/-- Files that are announced take the place of the text. -/
theorem Holds.announceFiles (h : s.Holds text) (ticks : Ticks) :
    (s.announceFiles ticks).Holds text := by
  rcases announceFiles_cases s ticks with ⟨-, heq⟩ | ⟨hactive, hfiles, heq⟩
  · rw [heq]
    exact h
  · rw [heq]
    have hsent : ({ s with clientText := none }.sendFormatListLocked true ticks).history =
        .formatList ({ s with clientText := none } : LocalClipboard).announces :: s.history := by
      refine sendFormatListLocked_eq ?_ (.inl rfl)
      exact hactive.1
    have hcleared : ({ s with clientText := none } : LocalClipboard).Holds none :=
      ⟨.inl rfl, fun _ ↦ rfl, h.fgdFormatId_ne⟩
    refine ⟨.inl (kept_sendFormatListLocked _ _ _).clientText, fun htext ↦ ?_,
      (hcleared.sendFormatListLocked rfl _ _).fgdFormatId_ne⟩
    rw [hsent, lastAnnounced, Option.some.injEq] at htext
    have hkind := isFiles_announces { s with clientText := none }
    rw [htext] at hkind
    exact absurd (hkind.trans hfiles) (by decide)

/-- **One command.** -/
theorem holds_step {command : ClipboardCommand} (h : s.Holds text)
    (hstep : (commandSystem strtod).step s command = some t) : t.Holds (command.latest text) := by
  cases command with
  | clipboardSet live new ticks =>
    obtain rfl := Option.some.inj hstep
    rw [ClipboardCommand.latest]
    cases live with
    | false => exact h
    | true =>
      simp only [if_true, true_and]
      split_ifs with hne
      · exact h.setText hne ticks
      · rw [ne_eq, not_not] at hne
        subst hne
        exact h
  | clipboardSetFiles live json ticks =>
    obtain rfl := Option.some.inj hstep
    cases live with
    | false => exact h
    | true =>
      have hset : (s.setLocalFiles strtod json).Holds text := by
        rw [LocalClipboard.setLocalFiles]
        split
        · exact ⟨h.stored, h.announced, h.fgdFormatId_ne⟩
        · exact h
      exact hset.announceFiles ticks
  | channelConnected =>
    obtain rfl := Option.some.inj hstep
    exact ⟨h.stored, fun htext ↦ (by cases htext), h.fgdFormatId_ne⟩
  | channelDisconnected =>
    obtain rfl := Option.some.inj hstep
    exact ⟨h.stored, h.announced, h.fgdFormatId_ne⟩
  | monitorReady ticks =>
    obtain rfl := Option.some.inj hstep
    refine Holds.sendFormatListLocked (s := { s with
      ready := true, clientText := none, formatListRejected := false, lastFormatListMs := 0 })
      ⟨.inl rfl, fun _ ↦ rfl, h.fgdFormatId_ne⟩ rfl true ticks
  | serverFormatList formats =>
    obtain rfl := Option.some.inj hstep
    refine ⟨h.stored, h.announced, ?_⟩
    rw [LocalClipboard.serverFormatList]
    dsimp only
    split_ifs
    · exact fgdFormatId_offerOf_ne formats
    · exact h.fgdFormatId_ne
  | serverFormatListResponse ok now =>
    obtain rfl := Option.some.inj hstep
    rw [LocalClipboard.serverFormatListResponse]
    split_ifs
    · exact h
    · exact ⟨h.stored, h.announced, h.fgdFormatId_ne⟩

/-- **Every run.** -/
theorem holds_run {commands : List ClipboardCommand} (h : s.Holds text)
    (hrun : (commandSystem strtod).run s commands = some t) :
    t.Holds (commands.foldl ClipboardCommand.latest text) := by
  induction commands generalizing s text with
  | nil =>
    obtain rfl := Option.some.inj hrun
    exact h
  | cons command commands ih =>
    obtain ⟨u, hstep, hrest⟩ := StepSystem.run_cons_eq_some_iff _ |>.1 hrun
    exact ih (holds_step h hstep) hrest

end LocalClipboard

/-! ### Text -/

/-- A text that is set is a text without U+0000, shorter than an `int` can say. -/
def ClipboardCommand.Proper : ClipboardCommand → Prop
  | clipboardSet _ bytes _ => ∃ text, bytes = utf8 text ∧ CText text ∧ bytes.length < 2 ^ 31 - 1
  | _ => True

/-- The bytes of a text that is worth storing. -/
def Storable (bytes : List UInt8) (text : String) : Prop :=
  bytes = utf8 text ∧ CText text ∧ bytes.length < 2 ^ 31 - 1 ∧ bytes ≠ []

theorem exists_storable_latest {commands : List ClipboardCommand}
    (hproper : ∀ command ∈ commands, command.Proper) {start : Option (List UInt8)}
    (hstart : ∀ bytes ∈ start, ∃ text, Storable bytes text) :
    ∀ bytes ∈ commands.foldl ClipboardCommand.latest start, ∃ text, Storable bytes text := by
  induction commands generalizing start with
  | nil => exact hstart
  | cons command commands ih =>
    obtain ⟨hcommand, hcommands⟩ := List.forall_mem_cons.1 hproper
    refine ih hcommands fun bytes hbytes ↦ ?_
    rw [ClipboardCommand.latest.eq_def] at hbytes
    split at hbytes
    · split_ifs at hbytes with hset
      · obtain rfl := Option.some.inj hbytes
        obtain ⟨text, heq, htext, hlength⟩ := hcommand
        exact ⟨text, heq, htext, hlength, hset.2⟩
      · exact hstart bytes hbytes
    · cases hbytes
    · exact hstart bytes hbytes

namespace LocalClipboard

variable {library : ClipLibrary} {s t : LocalClipboard}

/-- A stored text is handed out whole, with a terminator. -/
theorem formatDataRequest_text (hconversions : library.conversions.Faithful) {bytes : List UInt8}
    {text : String} (hstorable : Storable bytes text) (hstored : s.clientText = some bytes)
    (hid : s.fgdFormatId ≠ cfUnicodeText) :
    s.formatDataRequest library cfUnicodeText = ⟨true, some (wcharBytes (utf16 text ++ [0]))⟩ := by
  obtain ⟨rfl, htext, hlength, hne⟩ := hstorable
  obtain ⟨unit, units, hunits⟩ := List.exists_cons_of_ne_nil (utf16_ne_nil hne)
  have hshort : (wcharBytes (utf16 text ++ [0])).length < 2 ^ 32 := by
    have hle := length_utf16_le text
    rw [length_wcharBytes, List.length_append, List.length_singleton]
    omega
  rw [formatDataRequest, if_neg fun h ↦ hid h.2.symm, hstored]
  dsimp only
  rw [if_pos ⟨rfl, hne⟩, hconversions.toWChar text htext, hunits]
  dsimp only
  rw [← hunits, Nat.mod_eq_of_lt hshort, List.take_length]

theorem formatDataRequest_none (hstored : s.clientText = none)
    (hid : s.fgdFormatId ≠ cfUnicodeText) :
    s.formatDataRequest library cfUnicodeText = .fail := by
  rw [formatDataRequest, if_neg fun h ↦ hid h.2.symm, hstored]

/-- **A text that is handed out is received.** -/
theorem receivedText_utf16 {conversions : Conversions} (hconversions : conversions.Faithful)
    {text : String} (htext : CText text) (hne : utf8 text ≠ []) :
    receivedText conversions (wcharBytes (utf16 text ++ [0])) = some (utf8 text) := by
  have hread := hconversions.toUtf8 text htext [] (fun unit hunit ↦ by cases hunit)
  rw [List.append_nil] at hread
  rw [receivedText, wchars_wcharBytes, if_pos List.getLast?_concat, List.dropLast_concat,
    if_neg (utf16_ne_nil hne), hread]
  simpa using hne

end LocalClipboard

/-- The libraries, as far as they are relied on. -/
def exactLibrary : ClipLibrary :=
  ⟨strictConversions, fileListBytes, parseFileListBytes⟩

theorem faithful_exactLibrary : exactLibrary.Faithful :=
  ⟨faithful_strictConversions, fun _ _ h ↦ parseFileListBytes_fileListBytes h⟩

/-- A text is set four seconds after the channel has become ready. -/
def textSet : List ClipboardCommand :=
  [.channelConnected, .monitorReady ⟨5000, 5000⟩, .clipboardSet true (utf8 "hé") ⟨9000, 9000⟩]

namespace LocalClipboard

variable {library : ClipLibrary} {strtod : List UInt8 → CDouble × ℕ} {s t : LocalClipboard}
  {id : UInt32}

/-- The descriptors are known under an identifier. -/
def Known (id : UInt32) (s : LocalClipboard) : Prop :=
  s.fgdFormatId = id ∧ id ≠ 0

theorem announcedId_ne_zero (s : LocalClipboard) : s.announcedId ≠ 0 := by
  rw [announcedId]
  split_ifs with hzero
  · decide
  · exact hzero

/-- A list that announces files makes them known. -/
theorem known_of_announced {bypassLimits : Bool} {ticks : Ticks}
    (h : (s.sendFormatListLocked bypassLimits ticks).history =
      .formatList (.files id) :: s.history) :
    (s.sendFormatListLocked bypassLimits ticks).Known id := by
  rcases sendFormatListLocked_cases s bypassLimits ticks with heq | ⟨-, hhistory, hid⟩ |
    ⟨-, hhistory, -⟩
  · rw [heq] at h
    exact absurd h.symm (List.cons_ne_self _ _)
  · obtain rfl : s.announcedId = id :=
      Announced.files.inj (AnnounceEffect.formatList.inj (List.cons.inj (hhistory.symm.trans h)).1)
    exact ⟨hid, announcedId_ne_zero s⟩
  · cases (List.cons.inj (hhistory.symm.trans h)).1

/-- **A command that announces files** makes them known. -/
theorem known_step {command : ClipboardCommand}
    (hstep : (commandSystem strtod).step s command = some t)
    (h : t.history = .formatList (.files id) :: s.history) : t.Known id := by
  have hself : s.history ≠ .formatList (.files id) :: s.history :=
    (List.cons_ne_self _ _).symm
  cases command with
  | clipboardSet live text ticks =>
    obtain rfl := Option.some.inj hstep
    cases live with
    | false => exact absurd h hself
    | true =>
      rw [if_pos rfl] at h
      rcases setText_cases s text ticks with ⟨-, heq⟩ | ⟨-, heq⟩ | ⟨-, -, ⟨-, heq⟩ | ⟨-, heq⟩⟩ <;>
        rw [heq] at h
      · exact absurd h hself
      · exact absurd h hself
      · cases (List.cons.inj h).1
      · -- a text that is stored is no file
        rcases sendFormatListLocked_cases (s.store text) s.hasLocalFiles ticks with hsame |
          ⟨hfiles, -⟩ | ⟨-, hhistory, -⟩
        · rw [hsame] at h
          cases (List.cons.inj h).1
        · cases hfiles
        · cases (List.cons.inj (hhistory.symm.trans h)).1
  | clipboardSetFiles live json ticks =>
    obtain rfl := Option.some.inj hstep
    cases live with
    | false => exact absurd h hself
    | true =>
      have hset : (s.setLocalFiles strtod json).history = s.history := by
        rw [LocalClipboard.setLocalFiles]
        split <;> rfl
      rw [if_pos rfl] at h ⊢
      rcases announceFiles_cases (s.setLocalFiles strtod json) ticks with ⟨-, heq⟩ | ⟨-, -, heq⟩ <;>
        rw [heq] at h ⊢
      · exact absurd (hset.symm.trans h) hself
      · rw [← hset] at h
        exact known_of_announced h
  | channelConnected =>
    obtain rfl := Option.some.inj hstep
    cases (List.cons.inj h).1
  | monitorReady ticks =>
    obtain rfl := Option.some.inj hstep
    exact known_of_announced h
  | channelDisconnected | serverFormatList =>
    obtain rfl := Option.some.inj hstep
    exact absurd h hself
  | serverFormatListResponse ok now =>
    obtain rfl := Option.some.inj hstep
    rw [LocalClipboard.serverFormatListResponse] at h
    split_ifs at h
    · exact absurd h hself
    · exact absurd h hself

theorem Known.sendFormatListLocked (h : s.Known id) (bypassLimits : Bool) (ticks : Ticks) :
    (s.sendFormatListLocked bypassLimits ticks).Known id := by
  obtain ⟨rfl, hne⟩ := h
  refine ⟨?_, hne⟩
  rcases sendFormatListLocked_cases s bypassLimits ticks with heq | ⟨-, -, hid⟩ | ⟨-, -, hid⟩
  · rw [heq]
  · rw [hid, announcedId, if_neg hne]
  · exact hid

/-- The server does not offer files. -/
def OffersNone : ClipboardCommand → Prop
  | .serverFormatList formats => (offerOf formats).fgdFormatId = 0
  | _ => True

/-- **An identifier stays known** until the server offers files. -/
theorem Known.step (h : s.Known id) {command : ClipboardCommand} (hnone : OffersNone command)
    (hstep : (commandSystem strtod).step s command = some t) : t.Known id := by
  cases command with
  | clipboardSet live text ticks =>
    obtain rfl := Option.some.inj hstep
    cases live with
    | false => exact h
    | true =>
      rw [if_pos rfl]
      rcases setText_cases s text ticks with ⟨-, heq⟩ | ⟨-, heq⟩ | ⟨-, -, ⟨-, heq⟩ | ⟨-, heq⟩⟩ <;>
        rw [heq]
      · exact h
      · exact h
      · exact h
      · exact Known.sendFormatListLocked (s := s.store text) h _ _
  | clipboardSetFiles live json ticks =>
    obtain rfl := Option.some.inj hstep
    cases live with
    | false => exact h
    | true =>
      have hset : (s.setLocalFiles strtod json).Known id := by
        rw [LocalClipboard.setLocalFiles]
        split
        · exact h
        · exact h
      rw [if_pos rfl]
      rcases announceFiles_cases (s.setLocalFiles strtod json) ticks with ⟨-, heq⟩ | ⟨-, -, heq⟩ <;>
        rw [heq]
      · exact hset
      · exact Known.sendFormatListLocked
          (s := { s.setLocalFiles strtod json with clientText := none }) hset _ _
  | channelConnected | channelDisconnected =>
    obtain rfl := Option.some.inj hstep
    exact h
  | monitorReady ticks =>
    obtain rfl := Option.some.inj hstep
    exact Known.sendFormatListLocked (s := { s with
      ready := true, clientText := none, formatListRejected := false, lastFormatListMs := 0 }) h _ _
  | serverFormatList formats =>
    obtain rfl := Option.some.inj hstep
    have hzero : (offerOf formats).fgdFormatId = 0 := hnone
    exact ⟨(if_neg (not_not_intro hzero)).trans h.1, h.2⟩
  | serverFormatListResponse ok now =>
    obtain rfl := Option.some.inj hstep
    rw [LocalClipboard.serverFormatListResponse]
    split_ifs
    · exact h
    · exact h

theorem formatDataRequest_files (h : s.Known id) :
    s.formatDataRequest library id = s.handleFgdRequest library := by
  obtain ⟨rfl, hne⟩ := h
  rw [formatDataRequest, if_pos ⟨hne, rfl⟩]

/-- Something is handed out when files are staged and the library has descriptors for them. -/
theorem content_handleFgdRequest (hlibrary : library.Faithful) (hstaged : s.staged ≠ [])
    {data : List UInt8} (hserial : library.serializeFileList
      (s.staged.map (LocalFile.descriptor library.conversions)) = some data) :
    (s.handleFgdRequest library).content = some data := by
  have hfiles : s.hasLocalFiles = true := by
    rw [hasLocalFiles, ← staged, Bool.not_eq_true', List.isEmpty_eq_false_iff]
    exact hstaged
  rw [handleFgdRequest, if_pos hfiles, hserial]
  dsimp only
  rw [DataResponse.content, if_pos rfl, Option.filter_some,
    if_pos (decide_eq_true (hlibrary.parse _ _ hserial).1)]

/-- What is handed out are the descriptors of the files that are staged. -/
theorem serialize_of_handleFgdRequest {data : List UInt8}
    (h : data ∈ (s.handleFgdRequest library).content) :
    library.serializeFileList (s.staged.map (LocalFile.descriptor library.conversions)) =
      some data := by
  rw [handleFgdRequest] at h
  split at h
  · split at h
    case h_1 data' hdata =>
      rw [DataResponse.content, if_pos rfl, Option.filter_some] at h
      split_ifs at h
      · exact hdata.trans h
      · cases h
    case h_2 => cases h
  · cases h

end LocalClipboard

section Files

variable {library : ClipLibrary} {strtod : List UInt8 → CDouble × ℕ}
  {sprintf : ℕ → ℚ → List UInt8} {sscanf : List UInt8 → Option CDouble} {toDouble : UInt64 → ℚ}

/-- A file and a directory are staged. -/
def filesSet : ClipboardCommand :=
  .clipboardSetFiles true (some (utf8 ("[\x7b\"path\":\"/a\",\"name\":\"d/a\",\"size\":3\x7d," ++
    "\x7b\"path\":\"/d\",\"name\":\"d\",\"isDirectory\":true\x7d]"))) ⟨9000, 9000⟩

end Files

end RdpMcp
