import RdpMcp.Foundations.Script
import RdpMcp.Foundations.Utf16
import RdpMcp.Operations.Serial

/-!
# Typed text arrives intact

Typing a text follows a script (`follows_typeText`): for every character its code units, each as a
key that goes down and up, and then the pause if there is one. What arrives is told from the script:
a typing that is not interrupted sends the UTF-16 encoding of the text, pauses only behind complete
characters, and wherever it fails, the keys that have gone down and up are a prefix of the encoding
(`typeText_intact`). At most one key is left that has gone down and not up.
-/

namespace RdpMcp

open Interaction Operation

/-! ### The script -/

/-- The error that a request is answered with. -/
def SessionAct.failure : (act : SessionAct) → act.Answer → Option String
  | command _, .ok _ | pause _, .ok _ | awaitSize _ _, .ok _ => none
  | command _, .error error | pause _, .error error | awaitSize _ _, .error error => some error

/-- The commands of a code unit. -/
def keyPair (codeUnit : UInt16) : List JsonValue :=
  [unicodeCommand "unicode_key_down" codeUnit, unicodeCommand "unicode_key_up" codeUnit]

/-- The pause behind a character. -/
def characterPause (delayMs : UInt64) : List SessionAct :=
  if 0 < delayMs then [.pause delayMs.toNat] else []

/-- The script of a character. -/
def characterScript (delayMs : UInt64) (character : Char) : List SessionAct :=
  ((encodeUtf16 character).flatMap keyPair).map .command ++ characterPause delayMs

theorem follows_command (v : JsonValue) :
    (command v).run.Follows SessionAct.failure [.command v] := by
  refine ⟨[], rfl, fun answer ↦ ?_⟩
  cases answer with
  | ok value => exact ⟨rfl, rfl⟩
  | error error => rfl

theorem follows_pause (delay : ℕ) :
    (pause delay).run.Follows SessionAct.failure [.pause delay] := by
  refine ⟨[], rfl, fun answer ↦ ?_⟩
  cases answer with
  | ok value => exact ⟨rfl, rfl⟩
  | error error => rfl

theorem follows_typeCharacter (delayMs : UInt64) (character : Char) :
    (typeCharacter delayMs character).run.Follows SessionAct.failure
      (characterScript delayMs character) := by
  have hunits : ((encodeUtf16 character).forM typeCodeUnit).run.Follows SessionAct.failure
      ((encodeUtf16 character).flatMap fun codeUnit ↦ (keyPair codeUnit).map SessionAct.command) :=
    follows_forM _ fun codeUnit _ ↦ follows_except (follows_command _) (follows_command _)
  rw [characterScript, List.map_flatMap]
  refine follows_except hunits ?_
  rw [characterPause]
  split
  · exact follows_pause _
  · exact ⟨rfl, rfl⟩

/-- **The script of a text.** -/
theorem follows_typeText (text : String) (delayMs : UInt64) :
    (typeText text delayMs).run.Follows SessionAct.failure
      (text.toList.flatMap (characterScript delayMs)) :=
  follows_forM _ fun character _ ↦ follows_typeCharacter delayMs character

/-! ### What the script is like -/

theorem filterMap_command (commands : List JsonValue) :
    (commands.map SessionAct.command).filterMap SessionAct.command? = commands := by
  have hcommand : SessionAct.command? ∘ SessionAct.command = some := rfl
  rw [List.filterMap_map, hcommand, List.filterMap_some]

/-- **The commands of a text** are the keys of its encoding. -/
theorem commands_script (delayMs : UInt64) (text : List Char) :
    (text.flatMap (characterScript delayMs)).filterMap SessionAct.command? =
      (text.flatMap encodeUtf16).flatMap keyPair := by
  have hpause : (characterPause delayMs).filterMap SessionAct.command? = [] := by
    rw [characterPause]
    split <;> rfl
  have hcharacter (character : Char) :
      (characterScript delayMs character).filterMap SessionAct.command? =
        (encodeUtf16 character).flatMap keyPair := by
    rw [characterScript, List.filterMap_append, filterMap_command, hpause, List.append_nil]
  rw [List.filterMap_flatMap, List.flatMap_assoc]
  exact congrArg (text.flatMap ·) (funext hcharacter)

/-- An element that is not in the first part is in the second. -/
theorem split_of_notMem {α : Type} {front back pre post : List α} {a : α} (ha : a ∉ front)
    (h : front ++ back = pre ++ a :: post) :
    ∃ rest, pre = front ++ rest ∧ back = rest ++ a :: post := by
  rcases List.append_eq_append_iff.1 h with hbehind | ⟨rest, rfl, hrest⟩
  · exact hbehind
  · cases rest with
    | nil => exact ⟨[], by rw [List.append_nil, List.append_nil], hrest.symm⟩
    | cons b rest =>
      obtain ⟨rfl, -⟩ := List.cons.inj hrest
      exact absurd (List.mem_append_right _ List.mem_cons_self) ha

/-- The commands are the keys of the first characters of a text, of one at least. -/
def TypesCharacters (text : List Char) (commands : List JsonValue) : Prop :=
  ∃ typed rest, text = typed ++ rest ∧ typed ≠ [] ∧
    commands = (typed.flatMap encodeUtf16).flatMap keyPair

theorem typesCharacters_first (character : Char) (text : List Char) :
    TypesCharacters (character :: text) ((encodeUtf16 character).flatMap keyPair) :=
  ⟨[character], text, rfl, List.cons_ne_nil _ _, by rw [List.flatMap_singleton]⟩

theorem TypesCharacters.cons {text : List Char} {commands : List JsonValue}
    (h : TypesCharacters text commands) (character : Char) :
    TypesCharacters (character :: text) ((encodeUtf16 character).flatMap keyPair ++ commands) := by
  obtain ⟨typed, rest, rfl, -, rfl⟩ := h
  refine ⟨character :: typed, rest, rfl, List.cons_ne_nil _ _, ?_⟩
  rw [List.flatMap_cons, List.flatMap_append]

/-- **A pause stands behind complete characters.** -/
theorem before_pause {delayMs : UInt64} {text : List Char} {pre post : List SessionAct}
    {delay : ℕ} (h : text.flatMap (characterScript delayMs) = pre ++ .pause delay :: post) :
    0 < delayMs ∧ delay = delayMs.toNat ∧
      TypesCharacters text (pre.filterMap SessionAct.command?) := by
  induction text generalizing pre with
  | nil => exact absurd h.symm (List.append_ne_nil_of_right_ne_nil _ (List.cons_ne_nil _ _))
  | cons character text ih =>
    have hkeys : SessionAct.pause delay ∉
        ((encodeUtf16 character).flatMap keyPair).map SessionAct.command := by
      intro hmem
      obtain ⟨v, -, heq⟩ := List.mem_map.1 hmem
      cases heq
    rw [List.flatMap_cons, characterScript, List.append_assoc] at h
    obtain ⟨front, rfl, hfront⟩ := split_of_notMem hkeys h
    rw [List.filterMap_append, filterMap_command]
    rw [characterPause] at hfront
    split at hfront
    case isFalse =>
      obtain ⟨hpos, hdelay, htyped⟩ := ih hfront
      exact ⟨hpos, hdelay, htyped.cons character⟩
    case isTrue hpos =>
      -- the pause of this character, or one behind it
      cases front with
      | nil =>
        obtain ⟨hpause, -⟩ := List.cons.inj hfront
        refine ⟨hpos, (SessionAct.pause.inj hpause).symm, ?_⟩
        rw [List.filterMap_nil, List.append_nil]
        exact typesCharacters_first character text
      | cons act front =>
        obtain ⟨rfl, hrest⟩ := List.cons.inj hfront
        obtain ⟨hpos, hdelay, htyped⟩ := ih hrest
        exact ⟨hpos, hdelay, htyped.cons character⟩

/-- The beginning of a list of key pairs: pairs, and then perhaps a key that has gone down. -/
theorem isPrefix_keyPairs {codeUnits : List UInt16} {commands : List JsonValue}
    (h : commands <+: codeUnits.flatMap keyPair) :
    ∃ typed, typed <+: codeUnits ∧ (commands = typed.flatMap keyPair ∨ ∃ codeUnit,
      typed ++ [codeUnit] <+: codeUnits ∧
        commands = typed.flatMap keyPair ++ [unicodeCommand "unicode_key_down" codeUnit]) := by
  induction codeUnits generalizing commands with
  | nil => exact ⟨[], List.prefix_rfl, .inl (List.prefix_nil.1 h)⟩
  | cons codeUnit codeUnits ih =>
    rcases commands with - | ⟨down, - | ⟨up, commands⟩⟩
    · exact ⟨[], List.nil_prefix, .inl rfl⟩
    · obtain ⟨rfl, -⟩ := List.cons_prefix_cons.1 h
      exact ⟨[], List.nil_prefix, .inr ⟨codeUnit, List.prefix_append _ _, rfl⟩⟩
    · obtain ⟨rfl, hup⟩ := List.cons_prefix_cons.1 h
      obtain ⟨rfl, hrest⟩ := List.cons_prefix_cons.1 hup
      obtain ⟨typed, htyped, rfl | ⟨next, hnext, rfl⟩⟩ := ih hrest
      · exact ⟨codeUnit :: typed, List.cons_prefix_cons.2 ⟨rfl, htyped⟩, .inl rfl⟩
      · exact ⟨codeUnit :: typed, List.cons_prefix_cons.2 ⟨rfl, htyped⟩,
          .inr ⟨next, List.cons_prefix_cons.2 ⟨rfl, hnext⟩, rfl⟩⟩

/-! ### What arrives -/

/-- The commands of a log that have been sent. -/
def sentCommands (log : List ((act : SessionAct) × act.Answer)) : List JsonValue :=
  (granted SessionAct.failure log).filterMap SessionAct.command?

/-- **Typed text arrives intact.** A typing that is not interrupted sends the keys of a sequence of
code units that decodes to the text. Whatever the session answers, a pause comes behind the keys of
complete characters, and the keys that have gone down and up are a prefix of the encoding. -/
theorem typeText_intact (debug : Char → String) (text : String) (delayMs : UInt64) :
    (∃ codeUnits,
      (ToolCall.typeText text delayMs).trace debug = codeUnits.flatMap keyPair ∧
        Utf16.decode codeUnits = some text.toList) ∧
    ∀ log result, (typeText text delayMs).run.Dialogue log result →
      (result = .ok () → sentCommands log = (ToolCall.typeText text delayMs).trace debug) ∧
      (∀ pre delay answer post, log = pre ++ ⟨.pause delay, answer⟩ :: post →
        0 < delayMs ∧ delay = delayMs.toNat ∧ ∃ codeUnits typed rest,
          sentCommands pre = codeUnits.flatMap keyPair ∧ Utf16.decode codeUnits = some typed ∧
            text.toList = typed ++ rest ∧ typed ≠ []) ∧
      ∃ codeUnits, codeUnits <+: text.toList.flatMap encodeUtf16 ∧
        (sentCommands log = codeUnits.flatMap keyPair ∨ ∃ codeUnit,
          codeUnits ++ [codeUnit] <+: text.toList.flatMap encodeUtf16 ∧ sentCommands log =
            codeUnits.flatMap keyPair ++ [unicodeCommand "unicode_key_down" codeUnit]) := by
  have hfollows := follows_typeText text delayMs
  have htrace : (ToolCall.typeText text delayMs).trace debug =
      (text.toList.flatMap encodeUtf16).flatMap keyPair := by
    have htranscript : (typeText text delayMs).run.transcript SessionAct.granted =
        text.toList.flatMap (characterScript delayMs) :=
      hfollows.transcript_eq fun act ↦ by cases act <;> rfl
    rw [← commands_script delayMs, ← htranscript]
    rfl
  have hdecode (typed : List Char) : Utf16.decode (typed.flatMap encodeUtf16) = some typed :=
    Utf16.decode_eq_some_iff.2 rfl
  refine ⟨⟨_, htrace, hdecode _⟩, fun log result hlog ↦ ⟨fun hok ↦ ?_,
    fun pre delay answer post hsplit ↦ ?_, ?_⟩⟩
  · rw [htrace, sentCommands, (hfollows.granted_isPrefix hlog).2 hok, commands_script]
  · subst hsplit
    obtain ⟨rest, hscript⟩ := hfollows.before_request hlog
    obtain ⟨hpos, hdelay, typed, behind, htext, hne, htyped⟩ := before_pause hscript
    exact ⟨hpos, hdelay, _, typed, behind, htyped, hdecode typed, htext, hne⟩
  · have hprefix : sentCommands log <+: (text.toList.flatMap encodeUtf16).flatMap keyPair := by
      rw [← commands_script delayMs]
      exact (hfollows.granted_isPrefix hlog).1.filterMap _
    exact isPrefix_keyPairs hprefix

end RdpMcp
