import RdpMcp.Delivery.Lines
import RdpMcp.Native.Pointer

/-!
# What FreeRDP is handed

What a command is to hand to FreeRDP (`SentCommand.inputs`), and what a native call with its line
hands over (`handedBy`). **On a live connection the two agree** (`handedBy_value`): the line is
parsed to what was meant, and each value arrives in the type that FreeRDP takes. Without a
connection nothing is handed over (`handedBy_of_lost`).
-/

namespace RdpMcp

/-! ### One command -/

namespace SentCommand

/-- **The events that FreeRDP is to be handed for a command.** -/
def inputs : SentCommand → List InputEvent
  | connect .. | resize .. => []
  | mouseMove x y => [.mouse [.move] 0 (castUint16 x.toInt) (castUint16 y.toInt)]
  | mouseButton down x y button =>
    [.mouse ((if down then [.down] else []) ++ [buttonFlag button.toNat]) 0 (castUint16 x.toInt)
      (castUint16 y.toInt)]
  | mouseScroll x y delta vertical =>
    if delta = Int32.minValue then []
    else
      [.mouse ((if vertical then .wheel else .hwheel) ::
        if delta.toInt < 0 then [.wheelNegative] else [])
        (UInt8.ofNat (min delta.toInt.natAbs 0x78)) (castUint16 x.toInt) (castUint16 y.toInt)]
  | key down stroke =>
    if stroke.scancode = 0 then [] else [.keyboard down stroke.scancode stroke.extended]
  | unicodeKey down codeUnit => if codeUnit = 0 then [] else [.unicode (!down) codeUnit]

end SentCommand

/-- **The events that FreeRDP is to be handed for a call.** -/
def ToolCall.inputs (debug : Char → String) (call : ToolCall) : List InputEvent :=
  (call.sends debug).flatMap SentCommand.inputs

/-- The event in an effect, if it is one. -/
def NativeEffect.input? : NativeEffect → Option InputEvent
  | .input event => some event
  | _ => none

/-- What a native call hands to FreeRDP. -/
def handedBy (call : Option (ℤ × List NativeEffect)) : List InputEvent :=
  (call.map Prod.snd).elim [] (List.filterMap NativeEffect.input?)

theorem castUint16_toNat (codeUnit : UInt16) : castUint16 codeUnit.toNat = codeUnit := by
  have hlt := codeUnit.toNat_lt
  have hmod : ((codeUnit.toNat : ℤ) % 65536).toNat = codeUnit.toNat := by omega
  rw [castUint16, hmod, UInt16.ofNat_toNat]

theorem inputKey_toList (down extended : Bool) (scancode : UInt8) :
    (inputKey down scancode.toNat extended).toList =
      if scancode = 0 then [] else [.keyboard down scancode extended] := by
  have hlt := scancode.toNat_lt
  have hzero : scancode.toNat = 0 ↔ scancode = 0 := UInt8.toNat_inj (b := 0)
  rw [inputKey]
  by_cases h : scancode.toNat = 0
  · rw [if_pos (by omega), if_pos (hzero.1 h)]
    rfl
  · rw [if_neg (by omega), if_neg (mt hzero.2 h), Int.toNat_natCast, UInt8.ofNat_toNat]
    rfl

theorem inputUnicodeKey_toList (release : Bool) (codeUnit : UInt16) :
    (inputUnicodeKey release codeUnit.toNat).toList =
      if codeUnit = 0 then [] else [.unicode release codeUnit] := by
  have hlt := codeUnit.toNat_lt
  have hzero : codeUnit.toNat = 0 ↔ codeUnit = 0 := UInt16.toNat_inj (b := 0)
  rw [inputUnicodeKey]
  by_cases h : codeUnit.toNat = 0
  · rw [if_pos (by omega), if_pos (hzero.1 h)]
    rfl
  · rw [if_neg (by omega), if_neg (mt hzero.2 h), castUint16_toNat]
    rfl

theorem inputMouseScroll_toList (x y : ℤ) (delta : Int32) (vertical : Bool) :
    (inputMouseScroll x y delta.toInt vertical).toList =
      if delta = Int32.minValue then []
      else
        [.mouse ((if vertical then .wheel else .hwheel) ::
          if delta.toInt < 0 then [.wheelNegative] else [])
          (UInt8.ofNat (min delta.toInt.natAbs 0x78)) (castUint16 x) (castUint16 y)] := by
  have hlow := delta.le_toInt
  have hhigh := delta.toInt_lt
  have hmin : delta.toInt = -2147483648 ↔ delta = Int32.minValue :=
    Int32.toInt_inj (y := Int32.minValue)
  rw [inputMouseScroll_eq]
  by_cases hneg : delta.toInt < 0
  · rw [if_pos hneg, if_pos hneg]
    by_cases hleast : delta.toInt = -2147483648
    · have hint : int32 (-delta.toInt) = none := if_neg (by omega)
      rw [hint, if_pos (hmin.1 hleast)]
      rfl
    · have hint : int32 (-delta.toInt) = some (-delta.toInt) := if_pos (by omega)
      have habs : (min (-delta.toInt) 120).toNat = min delta.toInt.natAbs 120 := by omega
      rw [hint, if_neg (mt hmin.2 hleast), Option.map_some, habs]
      rfl
  · have habs : (min delta.toInt 120).toNat = min delta.toInt.natAbs 120 := by omega
    rw [if_neg hneg, if_neg hneg, if_neg (mt hmin.2 (by omega)), Option.map_some, habs]
    rfl

section Native

variable {api : FreeRdp} {state : NativeState} {strtod : List UInt8 → CDouble × ℕ}
  {toVec : JsonValue → List UInt8}

/-- What is handed over without a connection. -/
theorem handedBy_of_lost (h : state.connected = false) (text : List UInt8) :
    handedBy (rdpMcpNativeCommand api state strtod text) = [] := by
  rw [rdpMcpNativeCommand]
  split
  · rfl
  cases protocolParseCommand strtod text with
  | none => rfl
  | some command => cases command <;> simp [runCommand, h] <;> rfl

variable (api) in
theorem handedBy_sendInput (hinput : state.hasInput) (event : Option InputEvent) :
    handedBy (some (sendInput api state event)) = event.toList := by
  cases event with
  | none => rfl
  | some event => simp [handedBy, sendInput, hinput, NativeEffect.input?]

/-- **A command that is not a connect command arrives as it was meant.** -/
theorem parse_value (hstrtod : StrtodExact strtod) (htoVec : Serializes toVec)
    {command : SentCommand} (h : command.IsInput) :
    protocolParseCommand strtod (commandLine toVec command.value) = some command.meant := by
  cases command with
  | connect host port username password width height => exact absurd h not_false
  | mouseMove x y => exact parse_moveCommand hstrtod htoVec x y
  | mouseButton down x y button =>
    obtain ⟨hdown, hup⟩ := parse_buttonCommand hstrtod htoVec x y button.toNat_lt
    cases down with
    | true => exact hdown
    | false => exact hup
  | mouseScroll x y delta vertical => exact parse_scrollCommand hstrtod htoVec x y delta vertical
  | key down stroke =>
    obtain ⟨hdown, hup⟩ := parse_keyCommand hstrtod htoVec stroke
    cases down with
    | true => exact hdown
    | false => exact hup
  | unicodeKey down codeUnit =>
    obtain ⟨hdown, hup⟩ := parse_unicodeCommand hstrtod htoVec codeUnit
    cases down with
    | true => exact hdown
    | false => exact hup
  | resize width height =>
    exact parse_resizeCommand hstrtod htoVec (clampSize_le _) (clampSize_le _)

/-- **On a live connection, the line of a command hands over its events.** -/
theorem handedBy_value (hlive : state.Live) (hstrtod : StrtodExact strtod)
    (htoVec : Serializes toVec) {command : SentCommand} (h : command.IsInput) :
    handedBy (rdpMcpNativeCommand api state strtod (commandLine toVec command.value)) =
      command.inputs := by
  have hrun : rdpMcpNativeCommand api state strtod (commandLine toVec command.value) =
      runCommand api state command.meant :=
    rdpMcpNativeCommand_of_parsed hlive (parse_value hstrtod htoVec h)
  rw [hrun]
  cases command with
  | connect host port username password width height => exact absurd h not_false
  | mouseMove x y =>
    simp [SentCommand.meant, runCommand, hlive.connected, hlive.hasInstance, sendMouse,
      hlive.hasInput, handedBy, NativeEffect.input?, SentCommand.inputs, inputMouseMove]
  | mouseButton down x y button =>
    cases down <;>
      simp [SentCommand.meant, runCommand, hlive.connected, hlive.hasInstance, sendMouse,
        hlive.hasInput, handedBy, NativeEffect.input?, SentCommand.inputs, inputMouseButtonDown,
        inputMouseButtonUp]
  | mouseScroll x y delta vertical =>
    rw [SentCommand.inputs, ← inputMouseScroll_toList]
    rw [SentCommand.meant, runCommand]
    simp only [hlive.connected, hlive.hasInstance, hlive.hasInput, Bool.and_self, if_true]
    cases inputMouseScroll x.toInt y.toInt delta.toInt vertical with
    | none => rfl
    | some event =>
      simp [sendMouse, hlive.hasInput, handedBy, NativeEffect.input?]
  | key down stroke =>
    rw [SentCommand.inputs, ← inputKey_toList, ← handedBy_sendInput api hlive.hasInput]
    cases down <;>
      simp [SentCommand.meant, runCommand, hlive.connected, hlive.hasInstance, inputKeyDown,
        inputKeyUp]
  | unicodeKey down codeUnit =>
    rw [SentCommand.inputs, ← inputUnicodeKey_toList,
      ← handedBy_sendInput api hlive.hasInput]
    cases down <;>
      simp [SentCommand.meant, runCommand, hlive.connected, hlive.hasInstance, inputUnicodeKeyDown,
        inputUnicodeKeyUp]
  | resize width height =>
    simp [SentCommand.meant, runCommand, hlive.connected, hlive.hasInstance, handedBy,
      NativeEffect.input?, SentCommand.inputs]

end Native

end RdpMcp
