import RdpMcp.Native.Accepted
import RdpMcp.Native.Arrival
import RdpMcp.Operations.Chord
import RdpMcp.Operations.Drag
import RdpMcp.Operations.Typing

/-!
# What a call is for

The input that a tool call asks for, told by its arguments alone: the commands it sends, and the
events that FreeRDP is to be handed for them. Nothing here knows of JSON, of a pipe or of a worker.
The commands are those of the operation (`trace_eq_sends`), and on a live connection the native
library makes of each line exactly the events of its command (`run_value`).

A command that the native library refuses (a key `0`, a scroll that is not defined) stands for no
event. Coordinates are cast to 16 bits, as everywhere in the native library.
-/

namespace RdpMcp

open Nesting

/-! ### The commands of a call -/

/-- The events of a key, down or up. -/
def keySends (events : List ((UInt8 × Bool) × Bool)) : List SentCommand :=
  events.map fun event ↦ .key event.2 { scancode := event.1.1, extended := event.1.2 }

/-- A click. -/
def clickSends (x y : Int32) (button : UInt8) : List SentCommand :=
  [.mouseButton true x y button, .mouseButton false x y button]

/-- A code unit goes down and up. -/
def unitSends (codeUnit : UInt16) : List SentCommand :=
  [.unicodeKey true codeUnit, .unicodeKey false codeUnit]

/-- What a chord sends, by its action. -/
def strokeSends (stroke : KeyStroke) (modifiers : List KeyStroke) (action : String) :
    List SentCommand :=
  match action with
  | "press" => keySends (nest ((effectiveModifiers stroke modifiers ++ [stroke]).map KeyStroke.key))
  | "down" => [.key true stroke]
  | "up" => [.key false stroke]
  | _ => []

/-- **The commands of a call**, none if its arguments are refused. -/
def ToolCall.sends (debug : Char → String) : ToolCall → List SentCommand
  | mouseMove x y => [.mouseMove x y]
  | mouseClick x y button doubleClick =>
    match mouseButton button with
    | .error _ => []
    | .ok n =>
      (List.replicate (if doubleClick then 2 else 1) (clickSends x y (UInt8.ofNat n))).flatten
  | mouseDrag fromX fromY toX toY button =>
    match mouseButton button with
    | .error _ => []
    | .ok n =>
      .mouseMove fromX fromY :: .mouseButton true fromX fromY (UInt8.ofNat n) ::
        (dragPositions fromX fromY toX toY).map (fun position ↦
          .mouseMove position.1 position.2) ++
        [.mouseButton false toX toY (UInt8.ofNat n)]
  | mouseScroll x y delta vertical => [.mouseScroll x y delta vertical]
  | typeText text _ => (text.toList.flatMap encodeUtf16).flatMap unitSends
  | sendKey key modifiers action =>
    match keyStroke debug key, modifiers.mapM modifier with
    | .ok stroke, .ok strokes => strokeSends stroke strokes action
    | _, _ => []
  | resize width height => [.resize width height]

theorem value_keySends (events : List ((UInt8 × Bool) × Bool)) :
    (keySends events).map SentCommand.value = events.map keyEventCommand := by
  rw [keySends, List.map_map]
  rfl

theorem value_unitSends (codeUnits : List UInt16) :
    (codeUnits.flatMap unitSends).map SentCommand.value = codeUnits.flatMap keyPair := by
  rw [List.map_flatMap]
  rfl

/-- The code of a button survives as a byte. -/
theorem toNat_ofNat_button {button : String} {n : ℕ} (h : mouseButton button = .ok n) :
    (UInt8.ofNat n).toNat = n :=
  UInt8.toNat_ofNat_of_lt' (lt_of_le_of_lt (mouseButton_le_two h) (by decide))

/-- The script of a typed text is the units of its encoding. -/
theorem trace_typeText (text : String) (delayMs : UInt64) :
    Program.trace (typeText text delayMs).run =
      (text.toList.flatMap encodeUtf16).flatMap keyPair := by
  have htranscript : (typeText text delayMs).run.transcript SessionAct.granted =
      text.toList.flatMap (characterScript delayMs) :=
    (follows_typeText text delayMs).transcript_eq fun act ↦ by cases act <;> rfl
  rw [Program.trace, htranscript, commands_script]

theorem trace_sendKeyStroke_eq (stroke : KeyStroke) (modifiers : List KeyStroke)
    (action : String) :
    Program.trace (sendKeyStroke stroke modifiers action).run =
      (strokeSends stroke modifiers action).map SentCommand.value := by
  by_cases hpress : action = "press"
  · rw [hpress, trace_sendKeyStroke, strokeSends, value_keySends]
  by_cases hdown : action = "down"
  · rw [hdown]
    rfl
  by_cases hup : action = "up"
  · rw [hup]
    rfl
  · have hother : action ∉ ["press", "down", "up"] := by simp [hpress, hdown, hup]
    rw [sendKeyStroke_of_not_mem stroke modifiers hother, strokeSends]
    · rfl
    · exact hpress
    · exact hdown
    · exact hup

/-- **A call sends the commands it is for.** -/
theorem trace_eq_sends (debug : Char → String) (call : ToolCall) :
    call.trace debug = (call.sends debug).map SentCommand.value := by
  cases call with
  | mouseMove x y => rfl
  | mouseClick x y button doubleClick =>
    rw [ToolCall.trace, ToolCall.op, ToolCall.sends]
    cases hbutton : mouseButton button with
    | error error => rfl
    | ok n =>
      cases doubleClick <;>
        simp [clickSends, SentCommand.value, toNat_ofNat_button hbutton] <;> rfl
  | mouseDrag fromX fromY toX toY button =>
    rw [ToolCall.trace, ToolCall.op, ToolCall.sends]
    cases hbutton : mouseButton button with
    | error error => rfl
    | ok n =>
      refine (trace_mouseDrag fromX fromY toX toY n).trans ?_
      simp [SentCommand.value, toNat_ofNat_button hbutton, Function.comp_def]
  | mouseScroll x y delta vertical => rfl
  | typeText text delayMs =>
    exact (trace_typeText text delayMs).trans (value_unitSends _).symm
  | sendKey key modifiers action =>
    rw [ToolCall.trace, ToolCall.op, ToolCall.sends]
    cases keyStroke debug key with
    | error error => rfl
    | ok stroke =>
      cases modifiers.mapM modifier with
      | error error => rfl
      | ok strokes => exact trace_sendKeyStroke_eq stroke strokes action
  | resize width height => rfl

/-! ### What the commands of a call are like -/

namespace SentCommand

/-- Connecting is the only command that is not input. -/
def IsInput : SentCommand → Prop
  | connect .. => False
  | _ => True

/-- What the native library takes: a button, a key and a code unit that there are, and a turn of the
wheel that is defined. -/
def Accepted : SentCommand → Prop
  | connect .. => False
  | mouseMove .. | resize .. => True
  | mouseButton _ _ _ button => button.toNat ≤ 2
  | mouseScroll _ _ delta _ => delta ≠ Int32.minValue
  | key _ stroke => stroke.scancode ≠ 0
  | unicodeKey _ codeUnit => codeUnit ≠ 0

theorem Accepted.isInput {command : SentCommand} (h : command.Accepted) : command.IsInput := by
  cases command with
  | connect => exact h
  | mouseMove | mouseButton | mouseScroll | key | unicodeKey | resize => trivial

end SentCommand

/-- A call that types no U+0000 and does not scroll by the least `int`. -/
def ToolCall.Fine : ToolCall → Prop
  | typeText text _ => '\x00' ∉ text.toList
  | mouseScroll _ _ delta _ => delta ≠ Int32.minValue
  | _ => True

theorem mem_nest {κ : Type} {keys : List κ} {event : κ × Bool} (h : event ∈ nest keys) :
    event.1 ∈ keys := by
  rw [nest, List.mem_append, List.mem_map, List.mem_map] at h
  rcases h with ⟨key, hkey, rfl⟩ | ⟨key, hkey, rfl⟩
  · exact hkey
  · exact List.mem_reverse.1 hkey

theorem forall_mem_strokeSends {P : SentCommand → Prop} {stroke : KeyStroke}
    {modifiers : List KeyStroke} {action : String}
    (h : ∀ key ∈ stroke :: effectiveModifiers stroke modifiers, ∀ down other,
      other.scancode = key.scancode → P (.key down other)) :
    ∀ command ∈ strokeSends stroke modifiers action, P command := by
  obtain ⟨hstroke, hmodifiers⟩ := List.forall_mem_cons.1 h
  unfold strokeSends
  split
  · intro command hcommand
    obtain ⟨event, hevent, rfl⟩ := List.mem_map.1 hcommand
    obtain ⟨key, hkey, heq⟩ := List.mem_map.1 (mem_nest hevent)
    rw [← heq]
    rcases List.mem_append.1 hkey with hkey | hkey
    · exact hmodifiers key hkey _ _ rfl
    · obtain rfl := List.mem_singleton.1 hkey
      exact hstroke _ _ rfl
  · exact List.forall_mem_singleton.2 (hstroke _ _ rfl)
  · exact List.forall_mem_singleton.2 (hstroke _ _ rfl)
  · exact nofun

/-- **The commands of a call are input, and taken by the native library if the call is fine.** -/
theorem sends_spec (debug : Char → String) (call : ToolCall) :
    ∀ command ∈ call.sends debug, command.IsInput ∧ (call.Fine → command.Accepted) := by
  cases call with
  | mouseMove x y => exact List.forall_mem_singleton.2 ⟨trivial, fun _ ↦ trivial⟩
  | mouseClick x y button doubleClick =>
    rw [ToolCall.sends]
    cases hbutton : mouseButton button with
    | error error => exact nofun
    | ok n =>
      have hn : (UInt8.ofNat n).toNat ≤ 2 :=
        le_of_eq_of_le (toNat_ofNat_button hbutton) (mouseButton_le_two hbutton)
      intro command hcommand
      obtain ⟨click, hclick, hcommand⟩ := List.mem_flatten.1 hcommand
      obtain rfl := List.eq_of_mem_replicate hclick
      rcases List.mem_pair.1 hcommand with rfl | rfl
      · exact ⟨trivial, fun _ ↦ hn⟩
      · exact ⟨trivial, fun _ ↦ hn⟩
  | mouseDrag fromX fromY toX toY button =>
    rw [ToolCall.sends]
    cases hbutton : mouseButton button with
    | error error => exact nofun
    | ok n =>
      have hn : (UInt8.ofNat n).toNat ≤ 2 :=
        le_of_eq_of_le (toNat_ofNat_button hbutton) (mouseButton_le_two hbutton)
      intro command hcommand
      simp only [List.cons_append, List.mem_cons, List.mem_append, List.mem_map,
        List.not_mem_nil, or_false] at hcommand
      rcases hcommand with rfl | rfl | ⟨position, -, rfl⟩ | rfl
      · exact ⟨trivial, fun _ ↦ trivial⟩
      · exact ⟨trivial, fun _ ↦ hn⟩
      · exact ⟨trivial, fun _ ↦ trivial⟩
      · exact ⟨trivial, fun _ ↦ hn⟩
  | mouseScroll x y delta vertical => exact List.forall_mem_singleton.2 ⟨trivial, id⟩
  | typeText text delayMs =>
    intro command hcommand
    obtain ⟨codeUnit, hunit, hcommand⟩ := List.mem_flatMap.1 hcommand
    obtain ⟨character, hcharacter, hunit⟩ := List.mem_flatMap.1 hunit
    have hne (hfine : '\x00' ∉ text.toList) : codeUnit ≠ 0 :=
      Utf16.ne_zero_of_mem_encode (fun heq ↦ hfine (heq ▸ hcharacter)) hunit
    rcases List.mem_pair.1 hcommand with rfl | rfl
    · exact ⟨trivial, hne⟩
    · exact ⟨trivial, hne⟩
  | sendKey key modifiers action =>
    rw [ToolCall.sends]
    cases hstroke : keyStroke debug key with
    | error error => exact nofun
    | ok stroke =>
      cases hstrokes : modifiers.mapM modifier with
      | error error => exact nofun
      | ok strokes =>
        refine forall_mem_strokeSends fun other hother down pressed heq ↦ ⟨trivial, fun _ ↦ ?_⟩
        show pressed.scancode ≠ 0
        rw [heq]
        rcases List.mem_cons.1 hother with rfl | hother
        · exact scancode_ne_zero_of_keyStroke hstroke
        · rcases mem_effectiveModifiers hother with hmem | rfl
          · exact scancode_ne_zero_of_mapM hstrokes _ hmem
          · decide
  | resize width height => exact List.forall_mem_singleton.2 ⟨trivial, fun _ ↦ trivial⟩

end RdpMcp
