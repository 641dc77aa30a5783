import RdpMcp.Native.Cliprdr
import RdpMcp.Native.LocalFiles

/-!
# What the client announces

The other half of the clipboard channel: the client stores a text, or has files staged by the file
module, and announces the one or the other to the server by a format list. Lists are sent at most
once a second, and not within three seconds of a rejection; **a list that comes too early is not
sent at all**, also not later. Two things rely on lists that are sent:

* a text that is already stored is not announced again. So it should have been announced since it
  was stored (`textAnnounced`); the one text that has not been is one that came too early
  (`duplicate_iff`);
* the server takes the clipboard for what the last list says. So between commands the last list
  should announce files exactly if files are staged (`Agrees`); it does not once files are replaced
  by none (`agrees_iff`).

The history has what was done last in front. Lists can always be sent.
-/

namespace RdpMcp

/-- What a format list of the client announces: `CF_UNICODETEXT`, or `FileGroupDescriptorW`. -/
inductive Announced where
  | text
  | files (fgdFormatId : UInt32)
  deriving DecidableEq, Repr

def Announced.isFiles : Announced → Bool
  | text => false
  | files _ => true

/-- What the module does: the history of a run. -/
inductive AnnounceEffect where
  | connected
  | stored (text : List UInt8)
  | formatList (announced : Announced)
  deriving DecidableEq, Repr

/-- `GetTickCount64`, when the limits are looked at and when the list is sent. -/
structure Ticks where
  now : UInt64
  sent : UInt64
  deriving DecidableEq, Repr

/-- `FORMAT_LIST_MIN_INTERVAL_MS`. -/
def formatListMinIntervalMs : UInt64 := 1000

/-- `REJECT_BACKOFF_MS`. -/
def rejectBackoffMs : UInt64 := 3000

/-- The part of the clipboard channel that announces, with the files that are staged. -/
structure LocalClipboard where
  /-- `s_cliprdr` is not null. -/
  cliprdr : Bool := false
  ready : Bool := false
  clientText : Option (List UInt8) := none
  lastFormatListMs : UInt64 := 0
  lastRejectMs : UInt64 := 0
  formatListRejected : Bool := false
  localFiles : Option (List LocalFile) := none
  fgdFormatId : UInt32 := 0
  history : List AnnounceEffect := []

namespace LocalClipboard

/-! ### The file module -/

/-- `cliprdr_file_has_local_files`. -/
def hasLocalFiles (s : LocalClipboard) : Bool :=
  !(s.localFiles.getD []).isEmpty

/-- `cliprdr_file_set_local_files`; the text is null if there is none. -/
def setLocalFiles (s : LocalClipboard) (strtod : List UInt8 → CDouble × ℕ)
    (json : Option (List UInt8)) : LocalClipboard :=
  match json.bind (stagedFiles strtod) with
  | some localFiles => { s with localFiles }
  | none => s

/-- `cliprdr_file_clear_local_files`. -/
def clearLocalFiles (s : LocalClipboard) : LocalClipboard :=
  { s with localFiles := none }

/-- `cliprdr_file_init`. -/
def fileInit (s : LocalClipboard) : LocalClipboard :=
  { s with localFiles := none, fgdFormatId := 0 }

/-! ### The channel -/

/-- A list would come too early: after a rejection, or after another list. -/
def limited (s : LocalClipboard) (now : UInt64) : Bool :=
  s.formatListRejected && now - s.lastRejectMs < rejectBackoffMs ||
    s.lastFormatListMs > 0 && now - s.lastFormatListMs < formatListMinIntervalMs

/-- What a list announces now. -/
def announces (s : LocalClipboard) : Announced :=
  if s.hasLocalFiles then .files (if s.fgdFormatId = 0 then 0xC0BC else s.fgdFormatId) else .text

/-- `send_format_list_locked`. -/
def sendFormatListLocked (s : LocalClipboard) (bypassLimits : Bool) (ticks : Ticks) :
    LocalClipboard :=
  if !s.cliprdr then s
  else if !bypassLimits && s.limited ticks.now then s
  else
    { s with
      fgdFormatId :=
        match s.announces with
        | .files fgdFormatId => fgdFormatId
        | .text => s.fgdFormatId
      lastFormatListMs := ticks.sent
      formatListRejected := false
      history := .formatList s.announces :: s.history }

/-- `cliprdr_init`. -/
def init (s : LocalClipboard) : LocalClipboard :=
  { s with
    cliprdr := false
    ready := false
    clientText := none
    lastFormatListMs := 0
    lastRejectMs := 0
    formatListRejected := false }

/-- `cliprdr_channel_connected`. -/
def channelConnected (s : LocalClipboard) : LocalClipboard :=
  { s with cliprdr := true, ready := false, history := .connected :: s.history }

/-- `cliprdr_channel_disconnected`. -/
def channelDisconnected (s : LocalClipboard) : LocalClipboard :=
  { s with cliprdr := false, ready := false }

/-- `cb_monitor_ready`. -/
def monitorReady (s : LocalClipboard) (ticks : Ticks) : LocalClipboard :=
  { s with
    ready := true
    clientText := none
    formatListRejected := false
    lastFormatListMs := 0 }.sendFormatListLocked true ticks

/-- `cb_server_format_list`. -/
def serverFormatList (s : LocalClipboard) (formats : List ClipFormat) : LocalClipboard :=
  { s with
    formatListRejected := false
    fgdFormatId :=
      if (offerOf formats).fgdFormatId ≠ 0 then (offerOf formats).fgdFormatId else s.fgdFormatId }

/-- `cb_server_format_list_response`. -/
def serverFormatListResponse (s : LocalClipboard) (ok : Bool) (now : UInt64) : LocalClipboard :=
  if ok then s else { s with formatListRejected := true, lastRejectMs := now }

/-- `cliprdr_announce_files`. -/
def announceFiles (s : LocalClipboard) (ticks : Ticks) : LocalClipboard :=
  if s.cliprdr && s.ready && s.hasLocalFiles then
    { s with clientText := none }.sendFormatListLocked true ticks
  else s

/-- `cliprdr_set_text`. -/
def setText (s : LocalClipboard) (text : List UInt8) (ticks : Ticks) : LocalClipboard :=
  if text.isEmpty then s
  else
    let hadFiles := s.hasLocalFiles
    let s := s.clearLocalFiles
    if !hadFiles && s.clientText == some text then s
    else
      let s := { s with clientText := some text, history := .stored text :: s.history }
      if s.cliprdr && s.ready then s.sendFormatListLocked hadFiles ticks else s

end LocalClipboard

/-! ### What has been announced -/

/-- Text has been announced since a text was last stored. -/
def textAnnounced : List AnnounceEffect → Bool
  | [] => false
  | .formatList .text :: _ => true
  | .stored _ :: _ => false
  | _ :: history => textAnnounced history

/-- What the last list on the channel has announced. -/
def lastAnnounced : List AnnounceEffect → Option Announced
  | [] => none
  | .formatList announced :: _ => some announced
  | .connected :: _ => none
  | .stored _ :: history => lastAnnounced history

namespace LocalClipboard

variable {s t : LocalClipboard}

/-- The channel is ready. -/
def Active (s : LocalClipboard) : Prop :=
  s.cliprdr = true ∧ s.ready = true

/-- `cliprdr_set_text` takes the text for a duplicate. -/
def Duplicate (s : LocalClipboard) (text : List UInt8) : Prop :=
  text ≠ [] ∧ s.hasLocalFiles = false ∧ s.clientText = some text

/-! ### Functions -/

/-- **A list that is sent.** -/
theorem sendFormatListLocked_eq (hcliprdr : s.cliprdr = true) {bypassLimits : Bool} {ticks : Ticks}
    (h : bypassLimits = true ∨ s.limited ticks.now = false) :
    (s.sendFormatListLocked bypassLimits ticks).history = .formatList s.announces :: s.history := by
  have hlimits : (!bypassLimits && s.limited ticks.now) = false := by
    rcases h with h | h <;> rw [h]
    · rfl
    · exact Bool.and_false _
  rw [sendFormatListLocked, hcliprdr, hlimits]
  rfl

/-- What a list does not change. -/
structure Kept (s t : LocalClipboard) : Prop where
  cliprdr : t.cliprdr = s.cliprdr
  ready : t.ready = s.ready
  clientText : t.clientText = s.clientText
  localFiles : t.localFiles = s.localFiles

theorem kept_sendFormatListLocked (s : LocalClipboard) (bypassLimits : Bool) (ticks : Ticks) :
    Kept s (s.sendFormatListLocked bypassLimits ticks) := by
  rw [sendFormatListLocked]
  split
  · exact ⟨rfl, rfl, rfl, rfl⟩
  · split <;> exact ⟨rfl, rfl, rfl, rfl⟩

theorem Kept.active_iff (h : Kept s t) : t.Active ↔ s.Active := by
  rw [Active, Active, h.cliprdr, h.ready]

theorem Kept.hasLocalFiles (h : Kept s t) : t.hasLocalFiles = s.hasLocalFiles := by
  rw [LocalClipboard.hasLocalFiles, LocalClipboard.hasLocalFiles, h.localFiles]

theorem announces_eq_text (h : s.hasLocalFiles = false) : s.announces = .text := by
  rw [announces, h, if_neg Bool.false_ne_true]

theorem isFiles_announces (s : LocalClipboard) : s.announces.isFiles = s.hasLocalFiles := by
  rw [announces]
  split
  · next h => exact h.symm
  · next h => exact (Bool.not_eq_true _ ▸ h : s.hasLocalFiles = false).symm

/-- A text is stored, and the files are not staged any more. -/
def store (s : LocalClipboard) (text : List UInt8) : LocalClipboard :=
  { s.clearLocalFiles with clientText := some text, history := .stored text :: s.history }

/-- **What storing a text can do**: nothing, without a text; nothing but clearing the files, if it
is a duplicate; otherwise the text is stored, and announced if the channel is ready. -/
theorem setText_cases (s : LocalClipboard) (text : List UInt8) (ticks : Ticks) :
    (text = [] ∧ s.setText text ticks = s) ∨
      (s.Duplicate text ∧ s.setText text ticks = s.clearLocalFiles) ∨
      (text ≠ [] ∧ ¬s.Duplicate text ∧
        ((¬s.Active ∧ s.setText text ticks = s.store text) ∨
          (s.Active ∧ s.setText text ticks =
            (s.store text).sendFormatListLocked s.hasLocalFiles ticks))) := by
  rw [setText]
  split
  case isTrue hempty => exact .inl ⟨List.isEmpty_iff.1 hempty, rfl⟩
  case isFalse hne =>
    rw [List.isEmpty_iff] at hne
    have hduplicate : (!s.hasLocalFiles && s.clearLocalFiles.clientText == some text) = true ↔
        s.Duplicate text := by
      rw [Bool.and_eq_true, Bool.not_eq_true', beq_iff_eq, Duplicate, and_iff_right hne]
      rfl
    have hactive : ((s.store text).cliprdr && (s.store text).ready) = true ↔ s.Active :=
      Bool.and_eq_true_iff
    dsimp only
    split
    case isTrue h => exact .inr (.inl ⟨hduplicate.1 h, rfl⟩)
    case isFalse h =>
      refine .inr (.inr ⟨hne, fun hdup ↦ h (hduplicate.2 hdup), ?_⟩)
      split
      case isTrue hready => exact .inr ⟨hactive.1 hready, rfl⟩
      case isFalse hready => exact .inl ⟨fun hact ↦ hready (hactive.2 hact), rfl⟩

/-- **What announcing files can do.** -/
theorem announceFiles_cases (s : LocalClipboard) (ticks : Ticks) :
    (¬(s.Active ∧ s.hasLocalFiles = true) ∧ s.announceFiles ticks = s) ∨
      (s.Active ∧ s.hasLocalFiles = true ∧ s.announceFiles ticks =
        { s with clientText := none }.sendFormatListLocked true ticks) := by
  have hactive : (s.cliprdr && s.ready && s.hasLocalFiles) = true ↔
      s.Active ∧ s.hasLocalFiles = true := by
    rw [Bool.and_eq_true, Bool.and_eq_true]
    rfl
  rw [announceFiles]
  split
  case isTrue h => exact .inr ⟨(hactive.1 h).1, (hactive.1 h).2, rfl⟩
  case isFalse h => exact .inl ⟨fun hact ↦ h (hactive.2 hact), rfl⟩

end LocalClipboard

/-! ### Texts that are taken for duplicates -/

/-- Anything that happens to the two modules, one call after the other. -/
inductive AnnounceAction where
  | init
  | fileInit
  | channelConnected
  | channelDisconnected
  | monitorReady (ticks : Ticks)
  | serverFormatList (formats : List ClipFormat)
  | serverFormatListResponse (ok : Bool) (now : UInt64)
  | setLocalFiles (json : Option (List UInt8))
  | announceFiles (ticks : Ticks)
  | setText (text : List UInt8) (ticks : Ticks)

def announceSystem (strtod : List UInt8 → CDouble × ℕ) :
    StepSystem LocalClipboard AnnounceAction where
  step s
    | .init => some s.init
    | .fileInit => some s.fileInit
    | .channelConnected => some s.channelConnected
    | .channelDisconnected => some s.channelDisconnected
    | .monitorReady ticks => some (s.monitorReady ticks)
    | .serverFormatList formats => some (s.serverFormatList formats)
    | .serverFormatListResponse ok now => some (s.serverFormatListResponse ok now)
    | .setLocalFiles json => some (s.setLocalFiles strtod json)
    | .announceFiles ticks => some (s.announceFiles ticks)
    | .setText text ticks => some (s.setText text ticks)

namespace LocalClipboard

variable {strtod : List UInt8 → CDouble × ℕ} {s t : LocalClipboard}

/-- While the channel is ready, a text that is stored has been announced. -/
def Told (s : LocalClipboard) : Prop :=
  s.Active → s.clientText ≠ none → textAnnounced s.history = true

/-- **A text that is stored does not come too early.** -/
def Unlimited (s : LocalClipboard) : AnnounceAction → Prop
  | .setText text ticks => text ≠ [] → s.Active → s.hasLocalFiles = false →
      s.clientText ≠ some text → s.limited ticks.now = false
  | _ => True

/-- Text and files are stored as before, and as much has been announced. -/
theorem Told.of_eq (h : s.Told) (hcliprdr : t.cliprdr = s.cliprdr) (hready : t.ready = s.ready)
    (htext : t.clientText = s.clientText) (hhistory : t.history = s.history) : t.Told := by
  rw [Told, Active, hcliprdr, hready, htext, hhistory]
  exact h

theorem told_of_not_active (h : ¬s.Active) : s.Told :=
  fun hactive ↦ absurd hactive h

theorem told_of_clientText_eq_none (h : s.clientText = none) : s.Told :=
  fun _ hne ↦ absurd h hne

/-- **A text that comes in time is announced when it is stored.** -/
theorem told_setText (h : s.Told) {text : List UInt8} {ticks : Ticks}
    (hunlimited : s.Unlimited (.setText text ticks)) : (s.setText text ticks).Told := by
  rcases setText_cases s text ticks with ⟨-, heq⟩ | ⟨-, heq⟩ | ⟨hne, hduplicate, ⟨hidle, heq⟩ |
    ⟨hactive, heq⟩⟩
  · rw [heq]
    exact h
  · rw [heq]
    exact h.of_eq rfl rfl rfl rfl
  · rw [heq]
    exact told_of_not_active hidle
  · intro _ _
    have hlimits : s.hasLocalFiles = true ∨ (s.store text).limited ticks.now = false := by
      cases hfiles : s.hasLocalFiles with
      | true => exact .inl rfl
      | false =>
        refine .inr (hunlimited hne hactive hfiles fun htext ↦ ?_)
        exact hduplicate ⟨hne, hfiles, htext⟩
    have hcliprdr : (s.store text).cliprdr = true := hactive.1
    rw [heq, sendFormatListLocked_eq hcliprdr hlimits, announces_eq_text rfl]
    rfl

theorem told_step {action : AnnounceAction} (h : s.Told) (hunlimited : s.Unlimited action)
    (hstep : (announceSystem strtod).step s action = some t) : t.Told := by
  cases action with
  | init =>
    obtain rfl := Option.some.inj hstep
    exact told_of_clientText_eq_none rfl
  | fileInit =>
    obtain rfl := Option.some.inj hstep
    exact h.of_eq rfl rfl rfl rfl
  | channelConnected =>
    obtain rfl := Option.some.inj hstep
    exact told_of_not_active fun hactive ↦ nomatch hactive.2
  | channelDisconnected =>
    obtain rfl := Option.some.inj hstep
    exact told_of_not_active fun hactive ↦ nomatch hactive.2
  | monitorReady ticks =>
    obtain rfl := Option.some.inj hstep
    exact told_of_clientText_eq_none (kept_sendFormatListLocked _ _ _).clientText
  | serverFormatList formats =>
    obtain rfl := Option.some.inj hstep
    exact h.of_eq rfl rfl rfl rfl
  | serverFormatListResponse ok now =>
    obtain rfl := Option.some.inj hstep
    rw [serverFormatListResponse]
    split
    · exact h
    · exact h.of_eq rfl rfl rfl rfl
  | setLocalFiles json =>
    obtain rfl := Option.some.inj hstep
    rw [LocalClipboard.setLocalFiles]
    split
    · exact h.of_eq rfl rfl rfl rfl
    · exact h
  | announceFiles ticks =>
    obtain rfl := Option.some.inj hstep
    rcases announceFiles_cases s ticks with ⟨-, heq⟩ | ⟨-, -, heq⟩
    · rw [heq]
      exact h
    · rw [heq]
      exact told_of_clientText_eq_none (kept_sendFormatListLocked _ _ _).clientText
  | setText text ticks =>
    obtain rfl := Option.some.inj hstep
    exact told_setText h hunlimited

/-- **A text that comes too early** is a duplicate from then on, without having been announced. -/
theorem duplicate_of_not_unlimited {action : AnnounceAction} (hlimited : ¬s.Unlimited action)
    (hstep : (announceSystem strtod).step s action = some t) :
    ∃ text, t.Duplicate text ∧ t.Active ∧ textAnnounced t.history = false := by
  cases action with
  | setText text ticks =>
    obtain rfl := Option.some.inj hstep
    rw [Unlimited] at hlimited
    push Not at hlimited
    obtain ⟨hne, hactive, hfiles, htext, hlimited⟩ := hlimited
    rw [ne_eq, Bool.not_eq_false] at hlimited
    have hstored : s.setText text ticks = s.store text := by
      rcases setText_cases s text ticks with ⟨hempty, -⟩ | ⟨hduplicate, -⟩ | ⟨-, -, ⟨hidle, -⟩ |
        ⟨-, heq⟩⟩
      · exact absurd hempty hne
      · exact absurd hduplicate.2.2 htext
      · exact absurd hactive hidle
      · have hlimits : (!s.hasLocalFiles && (s.store text).limited ticks.now) = true := by
          rw [hfiles]
          exact hlimited
        have hcliprdr : (s.store text).cliprdr = true := hactive.1
        rw [heq, sendFormatListLocked, hlimits, hcliprdr]
        rfl
    rw [hstored]
    exact ⟨text, ⟨hne, rfl, rfl⟩, hactive, rfl⟩
  | _ => exact absurd trivial hlimited

end LocalClipboard

open LocalClipboard

/-- **The exact condition.** If no text that is stored in a run comes too early, every text that it
takes for a duplicate while the channel is ready has been announced since it was stored. And none
comes too early exactly if at no point of the run a text that has not been announced would be taken
for a duplicate. -/
theorem duplicate_iff (strtod : List UInt8 → CDouble × ℕ) (actions : List AnnounceAction) :
    ((announceSystem strtod).StepsMeet Unlimited {} actions →
      ∀ pre text ticks post s, actions = pre ++ .setText text ticks :: post →
        (announceSystem strtod).run {} pre = some s → s.Duplicate text → s.Active →
          textAnnounced s.history = true) ∧
      ((announceSystem strtod).StepsMeet Unlimited {} actions ↔
        ∀ pre post s, actions = pre ++ post → (announceSystem strtod).run {} pre = some s →
          ∀ text, s.Duplicate text → s.Active → textAnnounced s.history = true) := by
  have hiff : (announceSystem strtod).StepsMeet Unlimited {} actions ↔
      ∀ pre post s, actions = pre ++ post → (announceSystem strtod).run {} pre = some s →
        ∀ text, s.Duplicate text → s.Active → textAnnounced s.history = true := by
    constructor
    · rintro hmeet pre post s rfl hrun text ⟨-, -, htext⟩ hactive
      have htold : s.Told := StepSystem.run_invariant_of_stepsMeet (P := Told)
        (fun _ _ _ h hunlimited hstep ↦ told_step h hunlimited hstep)
        (told_of_clientText_eq_none rfl) hmeet.append_left hrun
      exact htold hactive (by rw [htext]; exact Option.some_ne_none _)
    · intro h
      refine StepSystem.stepsMeet_iff.2 fun pre action post s hactions hrun ↦ ?_
      by_contra hlimited
      obtain ⟨t, hstep⟩ : ∃ t, (announceSystem strtod).step s action = some t := by
        cases action <;> exact ⟨_, rfl⟩
      obtain ⟨text, hduplicate, hactive, hfalse⟩ := duplicate_of_not_unlimited hlimited hstep
      have hrun' : (announceSystem strtod).run {} (pre ++ [action]) = some t :=
        (StepSystem.run_append_eq_some_iff _).2
          ⟨s, hrun, (StepSystem.run_cons_eq_some_iff _).2 ⟨t, hstep, rfl⟩⟩
      have htrue := h (pre ++ [action]) post t (by rw [hactions, List.append_assoc]; rfl) hrun' text
        hduplicate hactive
      cases hfalse.symm.trans htrue
  refine ⟨fun hmeet pre text ticks post s hactions hrun hduplicate hactive ↦ ?_, hiff⟩
  exact hiff.1 hmeet pre _ s hactions hrun text hduplicate hactive

/-- The channel becomes ready at 5000 ms, and a text is stored 100 ms later. -/
def earlyText : List AnnounceAction :=
  [.channelConnected, .monitorReady ⟨5000, 5000⟩, .setText [0x61] ⟨5100, 5100⟩]

/-- **The text is a duplicate for good**, and has never been announced: ten seconds later it is
still not. -/
theorem earlyText_suppressed :
    ∃ s t, (announceSystem fun _ ↦ (.infinite false, 0)).run {} earlyText = some s ∧
      s.history = [.stored [0x61], .formatList .text, .connected] ∧
      s.Duplicate [0x61] ∧ s.Active ∧ textAnnounced s.history = false ∧
      (announceSystem fun _ ↦ (.infinite false, 0)).step s (.setText [0x61] ⟨15000, 15000⟩) =
        some t ∧ t.history = s.history :=
  ⟨_, _, rfl, by decide, ⟨by decide, by decide, by decide⟩, ⟨rfl, rfl⟩, by decide, rfl, by decide⟩

/-! ### Lists that do not agree with what is staged -/

/-- The commands of the library that concern the local clipboard, and what the channel does. A
command does nothing unless it finds a connection and an instance. -/
inductive ClipboardCommand where
  | clipboardSet (live : Bool) (text : List UInt8) (ticks : Ticks)
  | clipboardSetFiles (live : Bool) (json : Option (List UInt8)) (ticks : Ticks)
  | channelConnected
  | channelDisconnected
  | monitorReady (ticks : Ticks)
  | serverFormatList (formats : List ClipFormat)
  | serverFormatListResponse (ok : Bool) (now : UInt64)

def commandSystem (strtod : List UInt8 → CDouble × ℕ) :
    StepSystem LocalClipboard ClipboardCommand where
  step s
    | .clipboardSet live text ticks => some (if live then s.setText text ticks else s)
    | .clipboardSetFiles live json ticks =>
      some (if live then (s.setLocalFiles strtod json).announceFiles ticks else s)
    | .channelConnected => some s.channelConnected
    | .channelDisconnected => some s.channelDisconnected
    | .monitorReady ticks => some (s.monitorReady ticks)
    | .serverFormatList formats => some (s.serverFormatList formats)
    | .serverFormatListResponse ok now => some (s.serverFormatListResponse ok now)

namespace LocalClipboard

variable {strtod : List UInt8 → CDouble × ℕ} {s t : LocalClipboard}

/-- While the channel is ready, the last list on it announces files exactly if files are staged, and
text otherwise. -/
def Agrees (s : LocalClipboard) : Prop :=
  s.Active → ∃ announced, lastAnnounced s.history = some announced ∧
    announced.isFiles = s.hasLocalFiles

/-- **Files are not replaced by none** while the channel is ready. -/
def Replaces (strtod : List UInt8 → CDouble × ℕ) (s : LocalClipboard) : ClipboardCommand → Prop
  | .clipboardSetFiles live json _ => live = true → s.Active →
      ∀ localFiles, json.bind (stagedFiles strtod) = some localFiles → localFiles.getD [] = [] →
        s.hasLocalFiles = false
  | _ => True

theorem Agrees.of_eq (h : s.Agrees) (hcliprdr : t.cliprdr = s.cliprdr) (hready : t.ready = s.ready)
    (hfiles : t.hasLocalFiles = s.hasLocalFiles)
    (hhistory : lastAnnounced t.history = lastAnnounced s.history) : t.Agrees := by
  rw [Agrees, Active, hcliprdr, hready, hfiles, hhistory]
  exact h

theorem agrees_of_not_active (h : ¬s.Active) : s.Agrees :=
  fun hactive ↦ absurd hactive h

/-- **A list that is sent** announces what is staged. -/
theorem agrees_sendFormatListLocked {ticks : Ticks} :
    (s.sendFormatListLocked true ticks).Agrees := by
  intro hactive
  have hkept := kept_sendFormatListLocked s true ticks
  rw [hkept.active_iff] at hactive
  refine ⟨s.announces, ?_, ?_⟩
  · rw [sendFormatListLocked_eq hactive.1 (.inl rfl)]
    rfl
  · rw [hkept.hasLocalFiles, isFiles_announces]

/-- **A text** is announced at once if files have been staged. If not, text has been announced
already, so that it does not matter whether the list is sent. -/
theorem agrees_setText (h : s.Agrees) (text : List UInt8) (ticks : Ticks) :
    (s.setText text ticks).Agrees := by
  have hnone : s.clearLocalFiles.hasLocalFiles = false := rfl
  rcases setText_cases s text ticks with ⟨-, heq⟩ | ⟨hduplicate, heq⟩ | ⟨-, -, ⟨hidle, heq⟩ |
    ⟨hactive, heq⟩⟩
  · rw [heq]
    exact h
  · rw [heq]
    exact h.of_eq rfl rfl (hnone.trans hduplicate.2.1.symm) rfl
  · rw [heq]
    exact agrees_of_not_active hidle
  · rw [heq]
    cases hfiles : s.hasLocalFiles with
    | true => exact agrees_sendFormatListLocked
    | false =>
      have hstored : (s.store text).Agrees := h.of_eq rfl rfl (hnone.trans hfiles.symm) rfl
      rw [sendFormatListLocked]
      split
      · exact hstored
      · split
        · exact hstored
        · intro _
          exact ⟨.text, rfl, rfl⟩

theorem hasLocalFiles_eq_false_iff :
    s.hasLocalFiles = false ↔ s.localFiles.getD [] = [] := by
  rw [hasLocalFiles, Bool.not_eq_false', List.isEmpty_iff]

/-- **Files** are announced if there are any; if there are none, nothing is said. -/
theorem agrees_setLocalFiles_iff (h : s.Agrees) (json : Option (List UInt8)) (ticks : Ticks) :
    ((s.setLocalFiles strtod json).announceFiles ticks).Agrees ↔
      (s.Active → ∀ localFiles, json.bind (stagedFiles strtod) = some localFiles →
        localFiles.getD [] = [] → s.hasLocalFiles = false) := by
  rcases announceFiles_cases (s.setLocalFiles strtod json) ticks with ⟨hnot, heq⟩ |
    ⟨-, hfiles, heq⟩
  · rw [heq]
    rw [LocalClipboard.setLocalFiles] at hnot ⊢
    cases hparse : json.bind (stagedFiles strtod) with
    | none => exact iff_of_true h fun _ _ hsome ↦ nomatch hsome
    | some localFiles =>
      rw [hparse] at hnot
      dsimp only at hnot ⊢
      constructor
      · intro hagrees hactive files hsome hempty
        obtain rfl := Option.some.inj hsome
        obtain ⟨announced, hlast, hkind⟩ := h hactive
        obtain ⟨announced', hlast', hkind'⟩ := hagrees hactive
        obtain rfl := Option.some.inj (hlast.symm.trans hlast')
        exact hkind.symm.trans (hkind'.trans (hasLocalFiles_eq_false_iff.2 hempty))
      · intro hreplaces hactive
        have hempty : hasLocalFiles { s with localFiles } = false := by
          rw [← Bool.not_eq_true]
          exact fun htrue ↦ hnot ⟨hactive, htrue⟩
        obtain ⟨announced, hlast, hkind⟩ := h hactive
        refine ⟨announced, hlast, hkind.trans ?_⟩
        rw [hreplaces hactive localFiles rfl (hasLocalFiles_eq_false_iff.1 hempty), hempty]
  · rw [heq]
    refine iff_of_true agrees_sendFormatListLocked fun _ localFiles hparse hempty ↦ ?_
    rw [LocalClipboard.setLocalFiles, hparse] at hfiles
    cases hfiles.symm.trans (hasLocalFiles_eq_false_iff.2 hempty)

/-- **One command** keeps the agreement exactly if it does not replace files by none. -/
theorem agrees_step_iff {command : ClipboardCommand} (h : s.Agrees)
    (hstep : (commandSystem strtod).step s command = some t) :
    t.Agrees ↔ s.Replaces strtod command := by
  cases command with
  | clipboardSet live text ticks =>
    obtain rfl := Option.some.inj hstep
    refine iff_of_true ?_ trivial
    cases live with
    | true => exact agrees_setText h text ticks
    | false => exact h
  | clipboardSetFiles live json ticks =>
    obtain rfl := Option.some.inj hstep
    cases live with
    | true =>
      refine (agrees_setLocalFiles_iff h json ticks).trans ?_
      exact ⟨fun hreplaces _ ↦ hreplaces, fun hreplaces ↦ hreplaces rfl⟩
    | false => exact iff_of_true h fun hlive ↦ nomatch hlive
  | channelConnected =>
    obtain rfl := Option.some.inj hstep
    exact iff_of_true (agrees_of_not_active fun hactive ↦ nomatch hactive.2) trivial
  | channelDisconnected =>
    obtain rfl := Option.some.inj hstep
    exact iff_of_true (agrees_of_not_active fun hactive ↦ nomatch hactive.2) trivial
  | monitorReady ticks =>
    obtain rfl := Option.some.inj hstep
    exact iff_of_true agrees_sendFormatListLocked trivial
  | serverFormatList formats =>
    obtain rfl := Option.some.inj hstep
    exact iff_of_true (h.of_eq rfl rfl rfl rfl) trivial
  | serverFormatListResponse ok now =>
    obtain rfl := Option.some.inj hstep
    refine iff_of_true ?_ trivial
    rw [serverFormatListResponse]
    split
    · exact h
    · exact h.of_eq rfl rfl rfl rfl

end LocalClipboard

/-- **The exact condition.** After every command of a run the last list on the channel agrees with
what is staged exactly if no command of the run replaces files by none while the channel is ready.
-/
theorem agrees_iff (strtod : List UInt8 → CDouble × ℕ) (commands : List ClipboardCommand) :
    (∀ pre post s, commands = pre ++ post → (commandSystem strtod).run {} pre = some s →
        s.Agrees) ↔
      (commandSystem strtod).StepsMeet (Replaces strtod) {} commands := by
  refine (StepSystem.stepsMeet_iff_forall_prefix (I := fun _ ↦ True) (P := Agrees)
    (fun _ _ _ _ _ ↦ trivial) ?_ (fun s command t _ h hstep ↦ agrees_step_iff h hstep) trivial
    (show LocalClipboard.Agrees {} from agrees_of_not_active fun hactive ↦ nomatch hactive.1)).symm
  intro s command _ hstuck
  cases command <;> cases hstuck

/-- A file is staged and announced, and then an empty list of files is staged. -/
def filesReplaced : List ClipboardCommand :=
  [.channelConnected, .monitorReady ⟨5000, 5000⟩,
    .clipboardSetFiles true (some (utf8 "[\x7b\"path\":\"/a\",\"name\":\"a\"\x7d]")) ⟨5000, 5000⟩,
    .clipboardSetFiles true (some (utf8 "[]")) ⟨9000, 9000⟩]

/-- **The server still takes the clipboard for files.** -/
theorem filesReplaced_announced :
    ∃ s, (commandSystem fun _ ↦ (.infinite false, 0)).run {} filesReplaced = some s ∧
      s.Active ∧ s.hasLocalFiles = false ∧ lastAnnounced s.history = some (.files 0xC0BC) ∧
      ¬s.Agrees := by
  refine ⟨_, rfl, ⟨rfl, rfl⟩, by decide, by decide, fun h ↦ ?_⟩
  obtain ⟨announced, hlast, hkind⟩ := h ⟨rfl, rfl⟩
  obtain rfl := Option.some.inj hlast
  exact absurd hkind (by decide)

end RdpMcp
