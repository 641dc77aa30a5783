import RdpMcp.Native.CommandText

/-!
# Accepted calls

Whether a command the worker is sent gets result zero from the native layer, for every call the
other side of the pipe accepts. A nonzero result ends the worker, so this is whether **a call can
end its own connection**.

It can, in two ways. `type_text` sends the code unit `0` for U+0000 and the native layer takes no
code unit `0`; and the native layer negates the delta of a scroll, which is undefined for the least
`int`. Nothing else can go wrong (`accepted_iff`): the key tables hold no scan code `0`, buttons and
sides are in range, and every number survives the way through decimal text and a double.
-/

namespace RdpMcp

/-- A native library with a live connection. -/
structure NativeState.Live (state : NativeState) : Prop where
  initialized : state.initialized
  running : state.running
  connected : state.connected
  hasInstance : state.hasInstance
  hasInput : state.hasInput

/-- What an operation asks of its session succeeds natively: a command gets result zero. Pauses and
waits do not reach the native layer. -/
def Succeeds (api : FreeRdp) (state : NativeState) (strtod : List UInt8 → CDouble × ℕ)
    (toVec : JsonValue → List UInt8) : SessionAct → Prop
  | .command command =>
    (rdpMcpNativeCommand api state strtod (toVec command ++ [0x0a])).map Prod.fst = some 0
  | _ => True

/-! ### One command -/

section Commands

variable {api : FreeRdp} {state : NativeState} {strtod : List UInt8 → CDouble × ℕ}
  {toVec : JsonValue → List UInt8} (hlive : state.Live)

include hlive in
theorem rdpMcpNativeCommand_of_parsed {text : List UInt8} {command : Command}
    (h : protocolParseCommand strtod text = some command) :
    rdpMcpNativeCommand api state strtod text = runCommand api state command := by
  rw [rdpMcpNativeCommand, hlive.initialized, hlive.running, h]
  rfl

include hlive in
theorem sendInput_eq_zero_iff (hsend : ∀ event, api.send event) (event : Option InputEvent) :
    (sendInput api state event).1 = 0 ↔ event.isSome := by
  cases event with
  | none => simp [sendInput]
  | some event => simp [sendInput, hlive.hasInput, hsend event]

theorem inputKey_isSome {scancode : UInt8} (h : scancode ≠ 0) (down extended : Bool) :
    (inputKey down scancode.toNat extended).isSome := by
  have hlt := scancode.toNat_lt
  have hpos : scancode.toNat ≠ 0 := fun hzero ↦ h (UInt8.toNat_inj.1 hzero)
  rw [inputKey, if_neg (by omega)]
  rfl

theorem inputUnicodeKey_isSome (release : Bool) (codeUnit : UInt16) :
    (inputUnicodeKey release codeUnit.toNat).isSome ↔ codeUnit ≠ 0 := by
  have hlt := codeUnit.toNat_lt
  have hzero : codeUnit.toNat = 0 ↔ codeUnit = 0 := UInt16.toNat_inj (b := 0)
  rw [ne_eq, ← hzero, inputUnicodeKey]
  split
  case isTrue h => simpa using (show codeUnit.toNat = 0 by omega)
  case isFalse h => simpa using (show codeUnit.toNat ≠ 0 by omega)

/-- A delta has an absolute value unless it is the least `int`. -/
theorem inputMouseScroll_isSome (x y : ℤ) (delta : Int32) (vertical : Bool) :
    (inputMouseScroll x y delta.toInt vertical).isSome ↔ delta ≠ Int32.minValue := by
  have hlow := delta.le_toInt
  have hhigh := delta.toInt_lt
  have hmin : delta.toInt = -2147483648 ↔ delta = Int32.minValue :=
    Int32.toInt_inj (y := Int32.minValue)
  rw [ne_eq, ← hmin, inputMouseScroll]
  split
  case isTrue hneg =>
    rw [int32]
    split
    case isTrue h => simpa using (show delta.toInt ≠ -2147483648 by omega)
    case isFalse h => simpa using (show delta.toInt = -2147483648 by omega)
  case isFalse hpos => simpa using (show delta.toInt ≠ -2147483648 by omega)

variable (hstrtod : StrtodExact strtod) (htoVec : Serializes toVec)
include hlive hstrtod htoVec

/-- A move is handed on. -/
theorem run_moveCommand (x y : Int32) :
    rdpMcpNativeCommand api state strtod (toVec (moveCommand x y) ++ [0x0a]) =
      some (0, [.input (inputMouseMove x.toInt y.toInt)]) := by
  rw [rdpMcpNativeCommand_of_parsed hlive (parse_moveCommand hstrtod htoVec x y)]
  simp [runCommand, hlive.connected, hlive.hasInstance, hlive.hasInput, sendMouse]

/-- So is a button. -/
theorem run_buttonCommand (x y : Int32) {button : ℕ} (hbutton : button ≤ 2) :
    rdpMcpNativeCommand api state strtod
        (toVec (buttonCommand "mouse_button_down" x y button) ++ [0x0a]) =
      some (0, [.input (inputMouseButtonDown x.toInt y.toInt button)]) ∧
    rdpMcpNativeCommand api state strtod
        (toVec (buttonCommand "mouse_button_up" x y button) ++ [0x0a]) =
      some (0, [.input (inputMouseButtonUp x.toInt y.toInt button)]) := by
  obtain ⟨hdown, hup⟩ := parse_buttonCommand hstrtod htoVec x y (by omega : button < 256)
  rw [rdpMcpNativeCommand_of_parsed hlive hdown, rdpMcpNativeCommand_of_parsed hlive hup]
  simp [runCommand, hlive.connected, hlive.hasInstance, hlive.hasInput, sendMouse]

/-- A turn of the wheel is handed on where it is defined. -/
theorem run_scrollCommand (x y delta : Int32) (vertical : Bool) :
    rdpMcpNativeCommand api state strtod (toVec (scrollCommand x y delta vertical) ++ [0x0a]) =
      (inputMouseScroll x.toInt y.toInt delta.toInt vertical).map fun event ↦
        (0, [.input event]) := by
  have hsend : sendMouse state = fun event ↦ (0, [.input event]) := by
    funext event
    rw [sendMouse, if_pos hlive.hasInput]
  rw [rdpMcpNativeCommand_of_parsed hlive (parse_scrollCommand hstrtod htoVec x y delta vertical)]
  simp [runCommand, hlive.connected, hlive.hasInstance, hlive.hasInput, hsend]

/-- A resize is a request to the display control module. -/
theorem run_resizeCommand {width height : ℕ} (hwidth : width ≤ 8192) (hheight : height ≤ 8192) :
    rdpMcpNativeCommand api state strtod (toVec (resizeCommand width height) ++ [0x0a]) =
      some (0, [.requestResize width height 100 100]) := by
  rw [rdpMcpNativeCommand_of_parsed hlive (parse_resizeCommand hstrtod htoVec hwidth hheight)]
  simp [runCommand, hlive.connected, hlive.hasInstance]

theorem succeeds_moveCommand (x y : Int32) :
    Succeeds api state strtod toVec (.command (moveCommand x y)) := by
  rw [Succeeds, run_moveCommand hlive hstrtod htoVec x y]
  rfl

theorem succeeds_buttonCommand (x y : Int32) {button : ℕ} (hbutton : button ≤ 2) :
    Succeeds api state strtod toVec (.command (buttonCommand "mouse_button_down" x y button)) ∧
    Succeeds api state strtod toVec (.command (buttonCommand "mouse_button_up" x y button)) := by
  obtain ⟨hdown, hup⟩ := @run_buttonCommand api _ _ _ hlive hstrtod htoVec x y _ hbutton
  rw [Succeeds, Succeeds, hdown, hup]
  exact ⟨rfl, rfl⟩

/-- A scroll succeeds unless its delta is the least `int`. -/
theorem succeeds_scrollCommand_iff (x y delta : Int32) (vertical : Bool) :
    Succeeds api state strtod toVec (.command (scrollCommand x y delta vertical)) ↔
      delta ≠ Int32.minValue := by
  rw [Succeeds, run_scrollCommand hlive hstrtod htoVec,
    ← inputMouseScroll_isSome x.toInt y.toInt delta vertical, Option.map_map,
    Option.isSome_iff_exists]
  simp [Option.map_eq_some_iff]

theorem succeeds_unicodeCommand_iff (hsend : ∀ event, api.send event) (codeUnit : UInt16) :
    (Succeeds api state strtod toVec (.command (unicodeCommand "unicode_key_down" codeUnit)) ↔
      codeUnit ≠ 0) ∧
    (Succeeds api state strtod toVec (.command (unicodeCommand "unicode_key_up" codeUnit)) ↔
      codeUnit ≠ 0) := by
  obtain ⟨hdown, hup⟩ := parse_unicodeCommand hstrtod htoVec codeUnit
  rw [Succeeds, Succeeds, rdpMcpNativeCommand_of_parsed hlive hdown,
    rdpMcpNativeCommand_of_parsed hlive hup]
  simp [runCommand, hlive.connected, hlive.hasInstance, sendInput_eq_zero_iff hlive hsend,
    inputUnicodeKeyDown, inputUnicodeKeyUp, inputUnicodeKey_isSome]

theorem succeeds_keyCommand (hsend : ∀ event, api.send event) {stroke : KeyStroke}
    (hstroke : stroke.scancode ≠ 0) (down : Bool) :
    Succeeds api state strtod toVec (.command (keyCommand stroke down)) := by
  obtain ⟨hdown, hup⟩ := parse_keyCommand hstrtod htoVec stroke
  cases down with
  | true =>
    rw [Succeeds, rdpMcpNativeCommand_of_parsed hlive hdown]
    simp [runCommand, hlive.connected, hlive.hasInstance, sendInput_eq_zero_iff hlive hsend,
      inputKeyDown, inputKey_isSome hstroke]
  | false =>
    rw [Succeeds, rdpMcpNativeCommand_of_parsed hlive hup]
    simp [runCommand, hlive.connected, hlive.hasInstance, sendInput_eq_zero_iff hlive hsend,
      inputKeyUp, inputKey_isSome hstroke]

theorem succeeds_resizeCommand {width height : ℕ} (hwidth : width ≤ 8192)
    (hheight : height ≤ 8192) :
    Succeeds api state strtod toVec (.command (resizeCommand width height)) := by
  rw [Succeeds, run_resizeCommand hlive hstrtod htoVec hwidth hheight]
  rfl

/-! ### One operation -/

theorem succeeds_mouseScroll_iff (x y delta : Int32) (vertical : Bool) :
    (mouseScroll x y delta vertical).run.AllAsks (Succeeds api state strtod toVec) ↔
      delta ≠ Int32.minValue := by
  have hscroll : Succeeds api state strtod toVec (.command (scrollCommand x y delta vertical)) ↔
      delta ≠ Int32.minValue :=
    succeeds_scrollCommand_iff hlive hstrtod htoVec x y delta vertical
  exact ⟨fun h ↦ hscroll.1 h.1, fun h ↦ allAsks_command (hscroll.2 h)⟩

/-- A text can be typed unless U+0000 is in it. -/
theorem succeeds_typeText_iff (hsend : ∀ event, api.send event) (text : String)
    (delayMs : UInt64) :
    (typeText text delayMs).run.AllAsks (Succeeds api state strtod toVec) ↔
      '\x00' ∉ text.toList := by
  have hunit := succeeds_unicodeCommand_iff hlive hstrtod htoVec hsend
  constructor
  · intro h hnul
    have hasked := h.of_mem_transcript SessionAct.granted
      (mem_transcript_typeText delayMs hnul (show 0 ∈ encodeUtf16 '\x00' by decide))
    exact (hunit 0).1.1 hasked rfl
  · intro hnul
    refine allAsks_typeText (fun _ ↦ trivial) (fun character hcharacter codeUnit hmem ↦ ?_) delayMs
    have hne : codeUnit ≠ 0 :=
      Utf16.ne_zero_of_mem_encode (fun heq ↦ hnul (heq ▸ hcharacter)) hmem
    exact ⟨(hunit codeUnit).1.2 hne, (hunit codeUnit).2.2 hne⟩

/-- A chord of keys with scan codes can be sent: Shift, which it may add, has one. -/
theorem succeeds_sendKeyStroke (hsend : ∀ event, api.send event) {stroke : KeyStroke}
    {modifiers : List KeyStroke} (hstroke : stroke.scancode ≠ 0)
    (hmodifiers : ∀ key ∈ modifiers, key.scancode ≠ 0) (action : String) :
    (sendKeyStroke stroke modifiers action).run.AllAsks (Succeeds api state strtod toVec) := by
  have hkeys : ∀ key ∈ stroke :: effectiveModifiers stroke modifiers, key.scancode ≠ 0 := by
    refine List.forall_mem_cons.2 ⟨hstroke, fun key hkey ↦ ?_⟩
    rcases mem_effectiveModifiers hkey with hmem | rfl
    · exact hmodifiers key hmem
    · decide
  exact allAsks_sendKeyStroke (fun _ ↦ trivial) (fun key hkey down ↦
    succeeds_keyCommand hlive hstrtod htoVec hsend (hkeys key hkey) down) action

end Commands

/-! ### Every accepted call -/

theorem mouseButton_le_two {button : String} {n : ℕ} (h : mouseButton button = .ok n) : n ≤ 2 := by
  rw [mouseButton] at h
  split at h <;> cases h <;> decide

/-- **An accepted call gets result zero for every command it sends, unless it types U+0000 or
scrolls by the least `int`.** -/
theorem accepted_iff {api : FreeRdp} (hsend : ∀ event, api.send event) {state : NativeState}
    (hlive : state.Live) {strtod : List UInt8 → CDouble × ℕ} (hstrtod : StrtodExact strtod)
    {toVec : JsonValue → List UInt8} (htoVec : Serializes toVec) {debug : Char → String}
    {call : ToolCall} {op : Operation Unit} (hop : call.op debug = .ok op) :
    op.run.AllAsks (Succeeds api state strtod toVec) ↔
      (∀ text delayMs, call = .typeText text delayMs → '\x00' ∉ text.toList) ∧
      ∀ x y delta vertical, call = .mouseScroll x y delta vertical → delta ≠ Int32.minValue := by
  have hpause : ∀ delay, Succeeds api state strtod toVec (.pause delay) := fun _ ↦ trivial
  have hbuttons (x y : Int32) {n : ℕ} (hn : n ≤ 2) :
      Succeeds api state strtod toVec (.command (buttonCommand "mouse_button_down" x y n)) ∧
        Succeeds api state strtod toVec (.command (buttonCommand "mouse_button_up" x y n)) :=
    succeeds_buttonCommand hlive hstrtod htoVec x y hn
  cases call with
  | mouseMove x y =>
    cases hop
    exact iff_of_true (allAsks_command (succeeds_moveCommand hlive hstrtod htoVec x y))
      ⟨nofun, nofun⟩
  | mouseClick x y button doubleClick =>
    obtain ⟨n, hbutton, hop⟩ := Fallible.exists_of_bind_eq_ok hop
    cases hop
    obtain ⟨hdown, hup⟩ := hbuttons x y (mouseButton_le_two hbutton)
    exact iff_of_true (allAsks_mouseClick hpause hdown hup doubleClick) ⟨nofun, nofun⟩
  | mouseDrag fromX fromY toX toY button =>
    obtain ⟨n, hbutton, hop⟩ := Fallible.exists_of_bind_eq_ok hop
    cases hop
    have hn := mouseButton_le_two hbutton
    exact iff_of_true (allAsks_mouseDrag hpause (succeeds_moveCommand hlive hstrtod htoVec)
      (hbuttons fromX fromY hn).1 (hbuttons toX toY hn).2) ⟨nofun, nofun⟩
  | mouseScroll x y delta vertical =>
    cases hop
    refine (succeeds_mouseScroll_iff hlive hstrtod htoVec x y delta vertical).trans
      ⟨fun hdelta ↦ ⟨nofun, ?_⟩, fun h ↦ h.2 x y delta vertical rfl⟩
    rintro x y delta vertical ⟨⟩
    exact hdelta
  | typeText text delayMs =>
    cases hop
    refine (succeeds_typeText_iff hlive hstrtod htoVec hsend text delayMs).trans
      ⟨fun hnul ↦ ⟨?_, nofun⟩, fun h ↦ h.1 text delayMs rfl⟩
    rintro text delayMs ⟨⟩
    exact hnul
  | sendKey key modifiers action =>
    obtain ⟨stroke, hstroke, hop⟩ := Fallible.exists_of_bind_eq_ok hop
    obtain ⟨strokes, hmodifiers, hop⟩ := Fallible.exists_of_bind_eq_ok hop
    cases hop
    exact iff_of_true (succeeds_sendKeyStroke hlive hstrtod htoVec hsend
      (scancode_ne_zero_of_keyStroke hstroke) (scancode_ne_zero_of_mapM hmodifiers) action)
      ⟨nofun, nofun⟩
  | resize width height =>
    cases hop
    have hresize : Succeeds api state strtod toVec
        (.command (resizeCommand (clampSize width.toNat) (clampSize height.toNat))) :=
      succeeds_resizeCommand hlive hstrtod htoVec (clampSize_le _) (clampSize_le _)
    exact iff_of_true (Interaction.allAsks_except (Interaction.allAsks_except
      (allAsks_command hresize) fun _ ↦ ⟨trivial, fun _ ↦ trivial⟩) fun _ ↦ trivial)
      ⟨nofun, nofun⟩

/-! ### A library whose sends succeed -/

/-- FreeRDP where everything succeeds. -/
def sendingFreeRdp : FreeRdp where
  startConnection := fun _ ↦ 0
  send := fun _ ↦ true

/-- A native library in the middle of a connection. -/
def liveState : NativeState where
  initialized := true
  running := true
  connected := true
  hasInstance := true
  hasInput := true

theorem live_liveState : liveState.Live :=
  ⟨rfl, rfl, rfl, rfl, rfl⟩

/-- A chord of a capital letter, accepted by either side. -/
theorem accepted_iff_chord :
    ∃ op, (ToolCall.sendKey "A" ["ctrl"] "press").op Char.quote = .ok op ∧
      op.run.AllAsks (Succeeds sendingFreeRdp liveState strtodInteger compact) :=
  ⟨_, rfl, (accepted_iff (fun _ ↦ rfl) live_liveState strtodExact_strtodInteger
    (fun _ _ _ ↦ rfl)
    (show (ToolCall.sendKey "A" ["ctrl"] "press").op Char.quote = .ok _ from rfl)).2
    ⟨nofun, nofun⟩⟩

/-- **A text with U+0000 in it ends the connection**: the call is accepted, and its first command
gets the result `-7`. -/
theorem typed_nul_fails :
    ∃ op, (ToolCall.typeText "\x00" 0).op Char.quote = .ok op ∧
      .command (unicodeCommand "unicode_key_down" 0) ∈ op.run.transcript SessionAct.granted ∧
      rdpMcpNativeCommand sendingFreeRdp liveState strtodInteger
        (compact (unicodeCommand "unicode_key_down" 0) ++ [0x0a]) = some (-7, []) ∧
      ¬ op.run.AllAsks (Succeeds sendingFreeRdp liveState strtodInteger compact) := by
  have hparse := (parse_unicodeCommand strtodExact_strtodInteger (fun _ _ _ ↦ rfl) 0).1
  have hresult : rdpMcpNativeCommand sendingFreeRdp liveState strtodInteger
      (compact (unicodeCommand "unicode_key_down" 0) ++ [0x0a]) = some (-7, []) :=
    (rdpMcpNativeCommand_of_parsed live_liveState hparse).trans rfl
  have hasked : .command (unicodeCommand "unicode_key_down" 0) ∈
      (typeText "\x00" 0).run.transcript SessionAct.granted :=
    mem_transcript_typeText 0 (show '\x00' ∈ "\x00".toList by decide)
      (show 0 ∈ encodeUtf16 '\x00' by decide)
  refine ⟨_, rfl, hasked, hresult, fun h ↦ ?_⟩
  have hsucceeds := h.of_mem_transcript SessionAct.granted hasked
  rw [Succeeds, hresult] at hsucceeds
  exact absurd hsucceeds (by decide)

end RdpMcp
