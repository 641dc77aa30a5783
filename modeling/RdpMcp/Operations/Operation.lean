import Mathlib.Data.Int.Notation
import RdpMcp.Foundations.Interaction
import RdpMcp.Foundations.Utf16
import RdpMcp.Json.Value
import RdpMcp.Operations.Keyboard
import RdpMcp.Session.Calls

/-!
# Input operations

The compound input operations, as programs over the three things they do to a session: send a
command, pause, and (for a resize) wait for a desktop size. **What a session answers is left open**:
an operation is a program that asks (`Interaction`), and a session, a scheduler or a fixed table of
answers runs it. What an operation checks before it takes the operation lock is `ToolCall.op`'s own
failure, in front of the program.

Two things are easily overlooked and kept:

* `mouse_drag` catches the failure of its movement and sends the release all the same;
* coordinates are `i32` and its interpolation wraps around in a release build.

Commands are JSON values; a command's fields are in the order of their keys, as `serde_json` keeps
them.
-/

namespace RdpMcp

/-- What an operation asks of its session. -/
inductive SessionAct where
  | command (command : JsonValue)
  /-- Pause for some milliseconds. -/
  | pause (delay : ℕ)
  /-- The waiting loop of `resize`. -/
  | awaitSize (width height : ℕ)

/-- What it is answered. -/
def SessionAct.Answer : SessionAct → Type
  | command _ => Except String Unit
  | pause _ => Except String Unit
  | awaitSize _ _ => Except String (ℕ × ℕ)

/-- An input operation. -/
abbrev Operation (α : Type) := ExceptT String (Interaction SessionAct SessionAct.Answer) α

/-- The answers of a session where nothing goes wrong. -/
def SessionAct.granted : (act : SessionAct) → act.Answer
  | command _ => .ok ()
  | pause _ => .ok ()
  | awaitSize width height => .ok (width, height)

namespace Operation

/-- `Session::command`. -/
def command (command : JsonValue) : Operation Unit :=
  ExceptT.mk (.ask (.command command) .done)

/-- `Session::pause`. -/
def pause (delay : ℕ) : Operation Unit :=
  ExceptT.mk (.ask (.pause delay) .done)

/-- The loop of `resize`, and what follows it. -/
def awaitSize (width height : ℕ) : Operation (ℕ × ℕ) :=
  ExceptT.mk (.ask (.awaitSize width height) .done)

/-- Run an operation and go on with its result, failed or not: a closure that is called at once. -/
def attempt {α : Type} (p : Operation α) : Operation (Except String α) :=
  ExceptT.mk (p.run >>= fun result ↦ .done (.ok result))

end Operation

open Operation

/-! ### Mouse -/

/-- `mouse_button`. -/
def mouseButton (button : String) : Except String ℕ :=
  match asciiLowercase button with
  | "left" => .ok 0
  | "middle" => .ok 1
  | "right" => .ok 2
  | _ => .error "mouse button must be 'left', 'right', or 'middle'"

/-- The command of a mouse move. -/
def moveCommand (x y : Int32) : JsonValue :=
  .record [("type", .string "mouse_move"), ("x", .ofInt x.toInt), ("y", .ofInt y.toInt)]

/-- The command of a mouse button going up or down. -/
def buttonCommand (type : String) (x y : Int32) (button : ℕ) : JsonValue :=
  .record [("type", .string type), ("x", .ofInt x.toInt), ("y", .ofInt y.toInt),
    ("button", .ofInt button)]

/-- `mouse_move`. -/
def mouseMove (x y : Int32) : Operation Unit :=
  command (moveCommand x y)

/-- `mouse_click`. -/
def mouseClick (x y : Int32) (button : ℕ) (doubleClick : Bool) : Operation Unit :=
  let count := if doubleClick then 2 else 1
  (List.range count).forM fun index : ℕ ↦ do
    command (buttonCommand "mouse_button_down" x y button)
    command (buttonCommand "mouse_button_up" x y button)
    if index + 1 < count then
      pause 80

/-- The movement of a drag. -/
def dragMovement (fromX fromY toX toY : Int32) : Operation Unit :=
  ([1, 2, 3, 4, 5, 6, 7, 8, 9, 10] : List Int32).forM fun step ↦ do
    let x := fromX + (toX - fromX) * step / 10
    let y := fromY + (toY - fromY) * step / 10
    command (moveCommand x y)
    pause 15

/-- `mouse_drag`. -/
def mouseDrag (fromX fromY toX toY : Int32) (button : ℕ) : Operation Unit := do
  command (moveCommand fromX fromY)
  command (buttonCommand "mouse_button_down" fromX fromY button)
  let movement ← attempt (dragMovement fromX fromY toX toY)
  let release ← attempt (command (buttonCommand "mouse_button_up" toX toY button))
  -- `movement.and(release)`
  ExceptT.mk (.done (movement.bind fun _ ↦ release))

/-- The command of a turn of the wheel. -/
def scrollCommand (x y delta : Int32) (vertical : Bool) : JsonValue :=
  .record [("type", .string "mouse_scroll"), ("x", .ofInt x.toInt), ("y", .ofInt y.toInt),
    ("delta", .ofInt delta.toInt), ("vertical", .bool vertical)]

/-- `mouse_scroll`. -/
def mouseScroll (x y delta : Int32) (vertical : Bool) : Operation Unit :=
  command (scrollCommand x y delta vertical)

/-! ### Text -/

/-- `char::encode_utf16`. -/
def encodeUtf16 (character : Char) : List UInt16 :=
  Utf16.encode character

/-- The command of a code unit going up or down. -/
def unicodeCommand (type : String) (codeUnit : UInt16) : JsonValue :=
  .record [("type", .string type), ("code_unit", .ofInt codeUnit.toNat)]

/-- A code unit goes down and up. -/
def typeCodeUnit (codeUnit : UInt16) : Operation Unit := do
  command (unicodeCommand "unicode_key_down" codeUnit)
  command (unicodeCommand "unicode_key_up" codeUnit)

/-- One turn of the loop of `type_text`. -/
def typeCharacter (delayMs : UInt64) (character : Char) : Operation Unit := do
  (encodeUtf16 character).forM typeCodeUnit
  if 0 < delayMs then
    pause delayMs.toNat

/-- `type_text`. -/
def typeText (text : String) (delayMs : UInt64) : Operation Unit :=
  text.toList.forM (typeCharacter delayMs)

/-! ### Keys -/

/-- The command of a key going up or down. -/
def keyCommand (stroke : KeyStroke) (down : Bool) : JsonValue :=
  .record [("type", .string (if down then "key_down" else "key_up")),
    ("scancode", .ofInt stroke.scancode.toNat), ("extended", .bool stroke.extended)]

/-- `key_event`. -/
def keyEvent (stroke : KeyStroke) (down : Bool) : Operation Unit :=
  command (keyCommand stroke down)

/-- The modifiers of a chord: Shift is added to those asked for if the key needs it. -/
def effectiveModifiers (stroke : KeyStroke) (modifiers : List KeyStroke) : List KeyStroke :=
  if stroke.shift && !(modifiers.any fun item ↦ item.scancode == 0x2a) then
    modifiers ++ [{ scancode := 0x2a }]
  else modifiers

/-- `send_key_stroke`. -/
def sendKeyStroke (stroke : KeyStroke) (modifiers : List KeyStroke) (action : String) :
    Operation Unit :=
  let effective := effectiveModifiers stroke modifiers
  match action with
  | "press" => do
    effective.forM fun modifier ↦ do
      keyEvent modifier true
      pause 75
    keyEvent stroke true
    pause 75
    keyEvent stroke false
    effective.reverse.forM fun modifier ↦ do
      pause 75
      keyEvent modifier false
    pause 75
  | "down" => keyEvent stroke true
  | "up" => keyEvent stroke false
  | _ => throw "key action must be 'press', 'down', or 'up'"

/-! ### Resize -/

/-- The command of a new desktop size. -/
def resizeCommand (width height : ℕ) : JsonValue :=
  .record [("type", .string "resize"), ("width", .ofInt width), ("height", .ofInt height),
    ("desktopScaleFactor", .ofInt 100), ("deviceScaleFactor", .ofInt 100)]

/-- `resize`, for sides that are clamped already. -/
def resizeDesktop (width height : ℕ) : Operation (ℕ × ℕ) := do
  command (resizeCommand width height)
  Operation.awaitSize width height

/-! ### Tool calls -/

/-- A call of an input tool, with the arguments as they come. -/
inductive ToolCall where
  | mouseMove (x y : Int32)
  | mouseClick (x y : Int32) (button : String) (doubleClick : Bool)
  | mouseDrag (fromX fromY toX toY : Int32) (button : String)
  | mouseScroll (x y delta : Int32) (vertical : Bool)
  | typeText (text : String) (delayMs : UInt64)
  | sendKey (key : String) (modifiers : List String) (action : String)
  | resize (width height : UInt32)
  deriving DecidableEq, Repr

/-- The operation of a call, run under the operation lock, or what the call fails with before. -/
def ToolCall.op (debug : Char → String) : ToolCall → Except String (Operation Unit)
  | mouseMove x y => .ok (RdpMcp.mouseMove x y)
  | mouseClick x y button doubleClick => do
    let button ← mouseButton button
    return RdpMcp.mouseClick x y button doubleClick
  | mouseDrag fromX fromY toX toY button => do
    let button ← mouseButton button
    return RdpMcp.mouseDrag fromX fromY toX toY button
  | mouseScroll x y delta vertical => .ok (RdpMcp.mouseScroll x y delta vertical)
  | typeText text delayMs => .ok (RdpMcp.typeText text delayMs)
  | sendKey key modifiers action => do
    let stroke ← keyStroke debug key
    let modifiers ← modifiers.mapM modifier
    return sendKeyStroke stroke modifiers action
  | resize width height => .ok do
    let _ ← resizeDesktop (clampSize width.toNat) (clampSize height.toNat)

/-! ### What an operation asks -/

section Asks

open Interaction

variable {P : SessionAct → Prop}

theorem allAsks_command {v : JsonValue} (h : P (.command v)) : (command v).run.AllAsks P :=
  ⟨h, fun _ ↦ trivial⟩

theorem allAsks_attempt {α : Type} {p : Operation α} (h : p.run.AllAsks P) :
    (attempt p).run.AllAsks P :=
  allAsks_bind h fun _ ↦ trivial

variable (hpause : ∀ delay, P (.pause delay))
include hpause

theorem allAsks_pause (delay : ℕ) : (pause delay).run.AllAsks P :=
  ⟨hpause delay, fun _ ↦ trivial⟩

theorem allAsks_mouseClick {x y : Int32} {button : ℕ}
    (hdown : P (.command (buttonCommand "mouse_button_down" x y button)))
    (hup : P (.command (buttonCommand "mouse_button_up" x y button))) (doubleClick : Bool) :
    (mouseClick x y button doubleClick).run.AllAsks P := by
  rw [mouseClick]
  generalize (if doubleClick then 2 else 1) = count
  refine allAsks_forM fun index _ ↦ ?_
  refine allAsks_except (allAsks_command hdown) fun _ ↦ ?_
  refine allAsks_except (allAsks_command hup) fun _ ↦ ?_
  split
  · exact allAsks_pause hpause _
  · trivial

theorem allAsks_mouseDrag {fromX fromY toX toY : Int32} {button : ℕ}
    (hmove : ∀ x y, P (.command (moveCommand x y)))
    (hdown : P (.command (buttonCommand "mouse_button_down" fromX fromY button)))
    (hup : P (.command (buttonCommand "mouse_button_up" toX toY button))) :
    (mouseDrag fromX fromY toX toY button).run.AllAsks P := by
  have hmovement : (dragMovement fromX fromY toX toY).run.AllAsks P :=
    allAsks_forM fun step _ ↦
      allAsks_except (allAsks_command (hmove _ _)) fun _ ↦ allAsks_pause hpause _
  refine allAsks_except (allAsks_command (hmove _ _)) fun _ ↦ ?_
  refine allAsks_except (allAsks_command hdown) fun _ ↦ ?_
  refine allAsks_except (allAsks_attempt hmovement) fun _ ↦ ?_
  refine allAsks_except (allAsks_attempt (allAsks_command hup)) fun _ ↦ ?_
  trivial

theorem allAsks_typeText {text : String}
    (hunits : ∀ character ∈ text.toList, ∀ codeUnit ∈ encodeUtf16 character,
      P (.command (unicodeCommand "unicode_key_down" codeUnit)) ∧
        P (.command (unicodeCommand "unicode_key_up" codeUnit))) (delayMs : UInt64) :
    (typeText text delayMs).run.AllAsks P := by
  refine allAsks_forM fun character hcharacter ↦ ?_
  refine allAsks_except (allAsks_forM fun codeUnit hunit ↦ ?_) fun _ ↦ ?_
  · obtain ⟨hdown, hup⟩ := hunits character hcharacter codeUnit hunit
    exact allAsks_except (allAsks_command hdown) fun _ ↦ allAsks_command hup
  · split
    · exact allAsks_pause hpause _
    · trivial

theorem allAsks_sendKeyStroke {stroke : KeyStroke} {modifiers : List KeyStroke}
    (hkeys : ∀ key ∈ stroke :: effectiveModifiers stroke modifiers, ∀ down,
      P (.command (keyCommand key down))) (action : String) :
    (sendKeyStroke stroke modifiers action).run.AllAsks P := by
  obtain ⟨hstroke, hmodifiers⟩ := List.forall_mem_cons.1 hkeys
  unfold sendKeyStroke
  split
  · refine allAsks_except (allAsks_forM fun modifier h ↦ ?_) fun _ ↦ ?_
    · exact allAsks_except (allAsks_command (hmodifiers modifier h true)) fun _ ↦
        allAsks_pause hpause _
    refine allAsks_except (allAsks_command (hstroke true)) fun _ ↦ ?_
    refine allAsks_except (allAsks_pause hpause _) fun _ ↦ ?_
    refine allAsks_except (allAsks_command (hstroke false)) fun _ ↦ ?_
    refine allAsks_except (allAsks_forM fun modifier h ↦ ?_) fun _ ↦ allAsks_pause hpause _
    exact allAsks_except (allAsks_pause hpause _) fun _ ↦
      allAsks_command (hmodifiers modifier (List.mem_reverse.1 h) false)
  · exact allAsks_command (hstroke true)
  · exact allAsks_command (hstroke false)
  · trivial

end Asks

/-- Shift is the only key a chord adds to those asked for. -/
theorem mem_effectiveModifiers {stroke key : KeyStroke} {modifiers : List KeyStroke}
    (h : key ∈ effectiveModifiers stroke modifiers) :
    key ∈ modifiers ∨ key = { scancode := 0x2a } := by
  rw [effectiveModifiers] at h
  split at h
  · exact (List.mem_append.1 h).imp_right List.mem_singleton.1
  · exact .inl h

/-! ### Typing to the end -/

theorem outcome_typeCodeUnits (character : Char) :
    ((encodeUtf16 character).forM typeCodeUnit).run.outcome SessionAct.granted = .ok () ∧
      ((encodeUtf16 character).forM typeCodeUnit).run.transcript SessionAct.granted =
        (encodeUtf16 character).flatMap fun codeUnit ↦
          (typeCodeUnit codeUnit).run.transcript SessionAct.granted :=
  Interaction.outcome_forM_ok fun _ _ ↦ rfl

theorem outcome_typeCharacter (delayMs : UInt64) (character : Char) :
    (typeCharacter delayMs character).run.outcome SessionAct.granted = .ok () := by
  refine (Interaction.outcome_except_ok (outcome_typeCodeUnits character).1).trans ?_
  split <;> rfl

theorem transcript_typeText (text : String) (delayMs : UInt64) :
    (typeText text delayMs).run.transcript SessionAct.granted =
      text.toList.flatMap fun character ↦
        (typeCharacter delayMs character).run.transcript SessionAct.granted :=
  (Interaction.outcome_forM_ok fun character _ ↦ outcome_typeCharacter delayMs character).2

/-- A text that is typed to the end is typed with every code unit of every character. -/
theorem mem_transcript_typeText {text : String} (delayMs : UInt64) {character : Char}
    (hcharacter : character ∈ text.toList) {codeUnit : UInt16}
    (hunit : codeUnit ∈ encodeUtf16 character) :
    .command (unicodeCommand "unicode_key_down" codeUnit) ∈
      (typeText text delayMs).run.transcript SessionAct.granted := by
  obtain ⟨houtcome, htranscript⟩ := outcome_typeCodeUnits character
  rw [transcript_typeText, List.mem_flatMap]
  refine ⟨character, hcharacter, ?_⟩
  rw [typeCharacter, Interaction.transcript_except_ok houtcome, htranscript]
  exact List.mem_append_left _ (List.mem_flatMap.2 ⟨codeUnit, hunit, List.mem_cons_self⟩)

end RdpMcp
