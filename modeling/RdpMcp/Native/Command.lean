import RdpMcp.Native.CJson
import RdpMcp.Native.EndPaint

/-!
# The native command

`rdp_mcp_native_command`: parse one line of JSON, act, and return zero or the code of what is wrong.
**Any nonzero result ends the worker**, and with it the connection, so the ranges checked here are
the ranges the other side of the pipe has to keep to.

FreeRDP is a parameter (`FreeRdp`): what its sends return, and what connecting returns. Its flags
are kept as names. What the command does beyond its result is a list of effects, in order.

`int` is `ℤ` where it is only compared. Negating one is not defined at the lower end, so a command
can be undefined (`none`), as in `Native.EndPaint`: `abs_delta` of a scroll.
-/

namespace RdpMcp

/-! ### Reading a parsed object -/

namespace CJson

/-- `cjson_get_string`: a C string, up to its terminator. -/
def getString (json : CJson) (key : String) : Option (List UInt8) :=
  match json.item key with
  | some (.string bytes) => some (cString bytes)
  | _ => none

/-- `cjson_get_int`. -/
def getInt (json : CJson) (key : String) (default : ℤ) : ℤ :=
  match json.item key with
  | some (.number value) => value.valueInt
  | _ => default

/-- `cjson_get_bool`. -/
def getBool (json : CJson) (key : String) (default : Bool) : Bool :=
  match json.item key with
  | some (.bool b) => b
  | _ => default

end CJson

/-! ### Commands -/

/-- `DriveConfig`. -/
structure DriveConfig where
  name : Option (List UInt8)
  path : Option (List UInt8)

/-- `ConnectConfig`, all zero where the command has no `config`. -/
structure ConnectConfig where
  host : Option (List UInt8) := none
  port : ℤ := 0
  username : Option (List UInt8) := none
  password : Option (List UInt8) := none
  domain : Option (List UInt8) := none
  width : ℤ := 0
  height : ℤ := 0
  enableNla : Bool := false
  skipCertVerification : Bool := false
  enableGfx : Bool := false
  enableH264 : Bool := false
  drives : List DriveConfig := []
  desktopScaleFactor : ℤ := 0
  deviceScaleFactor : ℤ := 0
  enableClipboard : Bool := false

/-- `Command`. -/
inductive Command where
  | connect (config : ConnectConfig)
  | disconnect
  | mouseMove (x y : ℤ)
  | mouseButtonDown (x y button : ℤ)
  | mouseButtonUp (x y button : ℤ)
  | mouseScroll (x y delta : ℤ) (vertical : Bool)
  | keyDown (scancode : ℤ) (extended : Bool)
  | keyUp (scancode : ℤ) (extended : Bool)
  | unicodeKeyDown (codeUnit : ℤ)
  | unicodeKeyUp (codeUnit : ℤ)
  | resize (width height desktopScaleFactor deviceScaleFactor : ℤ)
  | clipboardSet (text : Option (List UInt8))
  | clipboardSetFiles (files : Option CJson)
  | clipboardRequestFiles (tempDir : Option (List UInt8))
  | unknown

/-- The `drives` of a configuration. -/
def parseDrives (config : CJson) : List DriveConfig :=
  match config.item "drives" with
  | some (.array drives) =>
    drives.map fun drive ↦ { name := drive.getString "name", path := drive.getString "path" }
  | _ => []

/-- The `config` of a connect command. -/
def parseConfig (config : CJson) : ConnectConfig where
  host := config.getString "host"
  port := config.getInt "port" 3389
  username := config.getString "username"
  password := config.getString "password"
  domain := config.getString "domain"
  width := config.getInt "width" 1920
  height := config.getInt "height" 1080
  enableNla := config.getBool "enableNla" true
  skipCertVerification := config.getBool "skipCertVerification" false
  enableGfx := config.getBool "enableGfx" true
  enableH264 := config.getBool "enableH264" true
  drives := parseDrives config
  desktopScaleFactor := config.getInt "desktopScaleFactor" 100
  deviceScaleFactor := config.getInt "deviceScaleFactor" 100
  enableClipboard := config.getBool "enableClipboard" true

/-- The command of an object with the given type. -/
def parseTyped (json : CJson) (type : List UInt8) : Command :=
  if type = utf8 "connect" then
    .connect (((json.item "config").map parseConfig).getD {})
  else if type = utf8 "disconnect" then .disconnect
  else if type = utf8 "mouse_move" then .mouseMove (json.getInt "x" 0) (json.getInt "y" 0)
  else if type = utf8 "mouse_button_down" then
    .mouseButtonDown (json.getInt "x" 0) (json.getInt "y" 0) (json.getInt "button" 0)
  else if type = utf8 "mouse_button_up" then
    .mouseButtonUp (json.getInt "x" 0) (json.getInt "y" 0) (json.getInt "button" 0)
  else if type = utf8 "mouse_scroll" then
    .mouseScroll (json.getInt "x" 0) (json.getInt "y" 0) (json.getInt "delta" 0)
      (json.getBool "vertical" true)
  else if type = utf8 "key_down" then
    .keyDown (json.getInt "scancode" 0) (json.getBool "extended" false)
  else if type = utf8 "key_up" then
    .keyUp (json.getInt "scancode" 0) (json.getBool "extended" false)
  else if type = utf8 "unicode_key_down" then .unicodeKeyDown (json.getInt "code_unit" 0)
  else if type = utf8 "unicode_key_up" then .unicodeKeyUp (json.getInt "code_unit" 0)
  else if type = utf8 "resize" then
    .resize (json.getInt "width" 1920) (json.getInt "height" 1080)
      (json.getInt "desktopScaleFactor" 100) (json.getInt "deviceScaleFactor" 100)
  else if type = utf8 "clipboard_set" then .clipboardSet (json.getString "text")
  else if type = utf8 "clipboard_set_files" then .clipboardSetFiles (json.item "files")
  else if type = utf8 "clipboard_request_files" then
    .clipboardRequestFiles (json.getString "tempDir")
  else .unknown

/-- `protocol_parse_command`, of a C string without its terminator: `none` where it returns false.
-/
def protocolParseCommand (strtod : List UInt8 → CDouble × ℕ) (text : List UInt8) :
    Option Command :=
  if text.isEmpty then none
  else
    match cJsonParse strtod text with
    | none => some .unknown
    | some json =>
      match json.getString "type" with
      | none => some .unknown
      | some type => some (parseTyped json type)

/-! ### Input -/

/-- The pointer flags of FreeRDP. -/
inductive PointerFlag where
  | move
  | down
  | button1
  | button2
  | button3
  | wheel
  | hwheel
  | wheelNegative
  deriving DecidableEq, Repr

/-- What is sent to the server. -/
inductive InputEvent where
  /-- Flags, the rotation of a wheel in their low byte, and a position. -/
  | mouse (flags : List PointerFlag) (rotation : UInt8) (x y : UInt16)
  | keyboard (down : Bool) (scancode : UInt8) (extended : Bool)
  | unicode (release : Bool) (codeUnit : UInt16)
  deriving DecidableEq, Repr

/-- A cast to `UINT16`. -/
def castUint16 (n : ℤ) : UInt16 :=
  UInt16.ofNat (n % 65536).toNat

/-- The button of a mouse event: the left one unless it is another. -/
def buttonFlag (button : ℤ) : PointerFlag :=
  if button = 1 then .button3 else if button = 2 then .button2 else .button1

/-- `input_mouse_move`. -/
def inputMouseMove (x y : ℤ) : InputEvent :=
  .mouse [.move] 0 (castUint16 x) (castUint16 y)

/-- `input_mouse_button_down`. -/
def inputMouseButtonDown (x y button : ℤ) : InputEvent :=
  .mouse [.down, buttonFlag button] 0 (castUint16 x) (castUint16 y)

/-- `input_mouse_button_up`. -/
def inputMouseButtonUp (x y button : ℤ) : InputEvent :=
  .mouse [buttonFlag button] 0 (castUint16 x) (castUint16 y)

/-- `input_mouse_scroll`, undefined where a delta has no absolute value. -/
def inputMouseScroll (x y delta : ℤ) (vertical : Bool) : Option InputEvent := do
  let absDelta ← if delta < 0 then int32 (-delta) else some delta
  let rotation := UInt8.ofNat (min absDelta 0x78).toNat
  let flags := (if vertical then .wheel else .hwheel) ::
    if delta < 0 then [.wheelNegative] else []
  return .mouse flags rotation (castUint16 x) (castUint16 y)

/-- `input_key_down` and `input_key_up`: the event, for a scan code in range. -/
def inputKey (down : Bool) (scancode : ℤ) (extended : Bool) : Option InputEvent :=
  if scancode ≤ 0 ∨ scancode > 0xff then none
  else some (.keyboard down (UInt8.ofNat scancode.toNat) extended)

/-- `input_key_down`. -/
def inputKeyDown := inputKey true

/-- `input_key_up`. -/
def inputKeyUp := inputKey false

/-- `input_unicode_key_down` and `input_unicode_key_up`: the event, for a code unit in range. -/
def inputUnicodeKey (release : Bool) (codeUnit : ℤ) : Option InputEvent :=
  if codeUnit ≤ 0 ∨ codeUnit > 0xffff then none
  else some (.unicode release (castUint16 codeUnit))

/-- `input_unicode_key_down`. -/
def inputUnicodeKeyDown := inputUnicodeKey false

/-- `input_unicode_key_up`. -/
def inputUnicodeKeyUp := inputUnicodeKey true

/-! ### The command -/

/-- The globals of the native library. `hasInput` says whether the instance has a context with an
input. -/
structure NativeState where
  initialized : Bool
  running : Bool
  connected : Bool
  hasInstance : Bool
  hasInput : Bool

/-- What a command does beyond its result. -/
inductive NativeEffect where
  | error (message : String)
  | startConnection (config : ConnectConfig)
  | stopConnection
  | input (event : InputEvent)
  | requestResize (width height desktopScaleFactor deviceScaleFactor : ℤ)
  | setClipboardText (text : Option (List UInt8))
  | setLocalFiles (files : Option CJson)
  | requestDownload (tempDir : Option (List UInt8))

/-- What is left to FreeRDP: the result of connecting, and whether an event is sent. -/
structure FreeRdp where
  startConnection : ConnectConfig → ℤ
  send : InputEvent → Bool

section Command

variable (api : FreeRdp) (state : NativeState)

/-- A key event: without an input, without an event in range or without success, `-7`. -/
def sendInput (event : Option InputEvent) : ℤ × List NativeEffect :=
  match event with
  | some event =>
    if state.hasInput then (if api.send event then 0 else -7, [.input event]) else (-7, [])
  | none => (-7, [])

/-- A mouse event, which nobody asks the success of. -/
def sendMouse (event : InputEvent) : ℤ × List NativeEffect :=
  (0, if state.hasInput then [.input event] else [])

/-- The `switch` of `rdp_mcp_native_command`. -/
def runCommand (command : Command) : Option (ℤ × List NativeEffect) :=
  let live := state.connected && state.hasInstance
  match command with
  | .connect config =>
    if state.connected then some (-3, [.error "Already connected"])
    else some (api.startConnection config, [.startConnection config])
  | .disconnect => some (0, [.stopConnection])
  | .mouseMove x y => some (if live then sendMouse state (inputMouseMove x y) else (0, []))
  | .mouseButtonDown x y button =>
    some (if live then sendMouse state (inputMouseButtonDown x y button) else (0, []))
  | .mouseButtonUp x y button =>
    some (if live then sendMouse state (inputMouseButtonUp x y button) else (0, []))
  | .mouseScroll x y delta vertical =>
    if live && state.hasInput then
      (inputMouseScroll x y delta vertical).map (sendMouse state)
    else some (0, [])
  | .keyDown scancode extended =>
    some (if live then sendInput api state (inputKeyDown scancode extended) else (0, []))
  | .keyUp scancode extended =>
    some (if live then sendInput api state (inputKeyUp scancode extended) else (0, []))
  | .unicodeKeyDown codeUnit =>
    some (if live then sendInput api state (inputUnicodeKeyDown codeUnit) else (0, []))
  | .unicodeKeyUp codeUnit =>
    some (if live then sendInput api state (inputUnicodeKeyUp codeUnit) else (0, []))
  | .resize width height desktop device =>
    some (0, if live then [.requestResize width height desktop device] else [])
  | .clipboardSet text => some (0, if live then [.setClipboardText text] else [])
  | .clipboardSetFiles files => some (0, if live then [.setLocalFiles files] else [])
  | .clipboardRequestFiles tempDir => some (0, if live then [.requestDownload tempDir] else [])
  | .unknown => some (-6, [.error "Unknown native command"])

/-- **`rdp_mcp_native_command`** of a C string without its terminator. -/
def rdpMcpNativeCommand (strtod : List UInt8 → CDouble × ℕ) (text : List UInt8) :
    Option (ℤ × List NativeEffect) :=
  if !state.initialized || !state.running then some (-1, [])
  else
    match protocolParseCommand strtod text with
    | none => some (-2, [])
    | some command => runCommand api state command

end Command

end RdpMcp
