import RdpMcp.Native.CommandText
import RdpMcp.Operations.Pipe

/-!
# What a command was meant to be

The commands one side of the worker pipe sends, each with the `Command` it is meant to be on the
other side. **Every command arrives as it was meant**, with one exception (`arrives_iff`): the
strings of a connect command are C strings on arrival, and a C string ends at its first zero byte.
JSON has an escape for U+0000, so neither the writer nor the check for zero bytes in a line of text
notices.
-/

namespace RdpMcp

/-! ### Zero bytes -/

theorem utf8_eq_flatMap (s : String) : utf8 s = s.toList.flatMap String.utf8EncodeChar := by
  rw [utf8]
  show s.toByteArray.data.toList = _
  rw [← String.utf8Encode_toList, List.utf8Encode]
  simp

/-- Only U+0000 is encoded with a zero byte. -/
theorem eq_nul_of_zero_mem_utf8EncodeChar {c : Char} (h : 0 ∈ String.utf8EncodeChar c) :
    c = '\x00' := by
  have hbyte {n : ℕ} (hpos : 0 < n) (hlt : n < 256) : (0 : UInt8) ≠ UInt8.ofNat n := by
    intro hzero
    have := congrArg UInt8.toNat hzero
    rw [UInt8.toNat_ofNat_of_lt' hlt] at this
    exact absurd this.symm (Nat.pos_iff_ne_zero.1 hpos)
  fun_cases String.utf8EncodeChar c with
  | case1 v hv =>
    rw [String.utf8EncodeChar, if_pos hv] at h
    by_contra hne
    have hpos : 0 < c.val.toNat := Nat.pos_of_ne_zero fun hzero ↦ hne (Char.toNat_inj.1 hzero)
    exact hbyte hpos (by omega) (List.mem_singleton.1 h)
  | case2 v hv hv' =>
    rw [String.utf8EncodeChar, if_neg hv, if_pos hv'] at h
    rcases List.mem_pair.1 h with h | h
    · exact absurd h (hbyte (by omega) (by omega))
    · exact absurd h (hbyte (by omega) (by omega))
  | case3 v hv hv' hv'' =>
    rw [String.utf8EncodeChar, if_neg hv, if_neg hv', if_pos hv''] at h
    simp only [List.mem_cons, List.not_mem_nil, or_false] at h
    rcases h with h | h | h <;> exact absurd h (hbyte (by omega) (by omega))
  | case4 v hv hv' hv'' =>
    rw [String.utf8EncodeChar, if_neg hv, if_neg hv', if_neg hv''] at h
    simp only [List.mem_cons, List.not_mem_nil, or_false] at h
    rcases h with h | h | h | h <;> exact absurd h (hbyte (by omega) (by omega))

theorem zero_mem_utf8_iff {s : String} : 0 ∈ utf8 s ↔ '\x00' ∈ s.toList := by
  rw [utf8_eq_flatMap, List.mem_flatMap]
  constructor
  · rintro ⟨c, hc, hzero⟩
    exact eq_nul_of_zero_mem_utf8EncodeChar hzero ▸ hc
  · exact fun h ↦ ⟨_, h, by decide⟩

/-- A string arrives whole if and only if U+0000 is not in it. -/
theorem cString_utf8_eq_iff {s : String} : cString (utf8 s) = utf8 s ↔ '\x00' ∉ s.toList :=
  cString_eq_self_iff.trans (not_congr zero_mem_utf8_iff)

/-! ### The commands -/

/-- A command on its way to the worker, with the arguments of the operation that sends it. -/
inductive SentCommand where
  | connect (host : String) (port : UInt16) (username password : String) (width height : UInt32)
  | mouseMove (x y : Int32)
  | mouseButton (down : Bool) (x y : Int32) (button : UInt8)
  | mouseScroll (x y delta : Int32) (vertical : Bool)
  | key (down : Bool) (stroke : KeyStroke)
  | unicodeKey (down : Bool) (codeUnit : UInt16)
  | resize (width height : UInt32)
  deriving DecidableEq, Repr

namespace SentCommand

/-- The value that is sent. -/
def value : SentCommand → JsonValue
  | connect host port username password width height =>
    connectCommand host port username password width.toNat height.toNat
  | mouseMove x y => moveCommand x y
  | mouseButton true x y button => buttonCommand "mouse_button_down" x y button.toNat
  | mouseButton false x y button => buttonCommand "mouse_button_up" x y button.toNat
  | mouseScroll x y delta vertical => scrollCommand x y delta vertical
  | key down stroke => keyCommand stroke down
  | unicodeKey true codeUnit => unicodeCommand "unicode_key_down" codeUnit
  | unicodeKey false codeUnit => unicodeCommand "unicode_key_up" codeUnit
  | resize width height => resizeCommand (clampSize width.toNat) (clampSize height.toNat)

/-- The command that is meant. -/
def meant : SentCommand → Command
  | connect host port username password width height => .connect {
      host := some (utf8 host)
      port := port.toNat
      username := some (utf8 username)
      password := some (utf8 password)
      domain := some []
      width := (min (max width.toNat 200) 8192 : ℕ)
      height := (min (max height.toNat 200) 8192 : ℕ)
      enableNla := true
      skipCertVerification := true
      enableGfx := true
      enableH264 := false
      drives := []
      desktopScaleFactor := 100
      deviceScaleFactor := 100
      enableClipboard := true }
  | mouseMove x y => .mouseMove x.toInt y.toInt
  | mouseButton true x y button => .mouseButtonDown x.toInt y.toInt button.toNat
  | mouseButton false x y button => .mouseButtonUp x.toInt y.toInt button.toNat
  | mouseScroll x y delta vertical => .mouseScroll x.toInt y.toInt delta.toInt vertical
  | key true stroke => .keyDown stroke.scancode.toNat stroke.extended
  | key false stroke => .keyUp stroke.scancode.toNat stroke.extended
  | unicodeKey true codeUnit => .unicodeKeyDown codeUnit.toNat
  | unicodeKey false codeUnit => .unicodeKeyUp codeUnit.toNat
  | resize width height => .resize (clampSize width.toNat) (clampSize height.toNat) 100 100

/-- No string of the command has U+0000 in it. -/
def NulFree : SentCommand → Prop
  | connect host _ username password _ _ =>
    '\x00' ∉ host.toList ∧ '\x00' ∉ username.toList ∧ '\x00' ∉ password.toList
  | _ => True

end SentCommand

/-! ### Arrival -/

/-- The fields of a connection, in the order of their keys. -/
def configFields (host : String) (port : UInt16) (username password : String) (width height : ℕ) :
    List (String × JsonValue) :=
  [("desktopScaleFactor", .ofInt 100), ("deviceScaleFactor", .ofInt 100), ("domain", .string ""),
    ("drives", .array []), ("enableClipboard", .bool true), ("enableGfx", .bool true),
    ("enableH264", .bool false), ("enableNla", .bool true),
    ("height", .ofInt (min (max height 200) 8192 : ℕ)), ("host", .string host),
    ("password", .string password), ("port", .ofInt port.toNat),
    ("skipCertVerification", .bool true), ("username", .string username),
    ("width", .ofInt (min (max width 200) 8192 : ℕ))]

theorem connectCommand_eq (host : String) (port : UInt16) (username password : String)
    (width height : ℕ) :
    connectCommand host port username password width height =
      .object [("config", .object (configFields host port username password width height)),
        ("type", .string "connect")] := by
  simp only [connectCommand, configFields, JsonValue.record, List.foldl, JsonValue.insertField,
    String.reduceLT, String.reduceEq, if_true, if_false]

section Connect

variable (host : String) (port : UInt16) (username password : String) (width height : ℕ)

theorem exact_configFields (n : ℕ) :
    ∀ field ∈ configFields host port username password width height,
      0 ∉ utf8 field.1 ∧ field.2.Exact (n + 1) := by
  have hport := port.toNat_lt
  have hexact {i : ℕ} (h : i < 65536) : (JsonValue.ofInt i).Exact (n + 1) :=
    exact_ofInt (by omega) (by omega) _
  have hdrives : JsonValue.Exact (n + 1) (.array []) := .array nofun
  rw [configFields]
  simp only [List.forall_mem_cons]
  exact ⟨⟨by decide, hexact (by decide)⟩, ⟨by decide, hexact (by decide)⟩, ⟨by decide, .string _ _⟩,
    ⟨by decide, hdrives⟩, ⟨by decide, .bool _ _⟩, ⟨by decide, .bool _ _⟩, ⟨by decide, .bool _ _⟩,
    ⟨by decide, .bool _ _⟩, ⟨by decide, hexact (by omega)⟩, ⟨by decide, .string _ _⟩,
    ⟨by decide, .string _ _⟩, ⟨by decide, hexact hport⟩, ⟨by decide, .bool _ _⟩,
    ⟨by decide, .string _ _⟩, ⟨by decide, hexact (by omega)⟩, nofun⟩

theorem plainFields_configFields :
    PlainFields (configFields host port username password width height) :=
  exact_configFields host port username password width height 998

/-- A connection arrives with its strings cut at their first zero byte. -/
theorem parseConfig_configFields :
    parseConfig (toCJson (.object (configFields host port username password width height))) = {
      host := some (cString (utf8 host))
      port := port.toNat
      username := some (cString (utf8 username))
      password := some (cString (utf8 password))
      domain := some []
      width := (min (max width 200) 8192 : ℕ)
      height := (min (max height 200) 8192 : ℕ)
      enableNla := true
      skipCertVerification := true
      enableGfx := true
      enableH264 := false
      drives := []
      desktopScaleFactor := 100
      deviceScaleFactor := 100
      enableClipboard := true } := by
  have hfields := plainFields_configFields host port username password width height
  have hlt := port.toNat_lt
  have hdrives : parseDrives (toCJson (.object
      (configFields host port username password width height))) = [] := by
    rw [parseDrives, item_toCJson hfields,
      show List.lookup "drives" (configFields host port username password width height) =
        some (.array []) from rfl]
    rfl
  rw [parseConfig, hdrives,
    getString_toCJson hfields (k := "host") (s := host) rfl,
    getInt_toCJson hfields (k := "port") (n := port.toNat) rfl (by omega) (by omega),
    getString_toCJson hfields (k := "username") (s := username) rfl,
    getString_toCJson hfields (k := "password") (s := password) rfl,
    getString_toCJson hfields (k := "domain") (s := "") rfl,
    getInt_toCJson hfields (k := "width") (n := (min (max width 200) 8192 : ℕ)) rfl (by omega)
      (by omega),
    getInt_toCJson hfields (k := "height") (n := (min (max height 200) 8192 : ℕ)) rfl (by omega)
      (by omega),
    getBool_toCJson hfields (k := "enableNla") (b := true) rfl,
    getBool_toCJson hfields (k := "skipCertVerification") (b := true) rfl,
    getBool_toCJson hfields (k := "enableGfx") (b := true) rfl,
    getBool_toCJson hfields (k := "enableH264") (b := false) rfl,
    getInt_toCJson hfields (k := "desktopScaleFactor") (n := 100) rfl (by omega) (by omega),
    getInt_toCJson hfields (k := "deviceScaleFactor") (n := 100) rfl (by omega) (by omega),
    getBool_toCJson hfields (k := "enableClipboard") (b := true) rfl]
  rfl

variable {strtod : List UInt8 → CDouble × ℕ} {toVec : JsonValue → List UInt8}

theorem parse_connectCommand (hstrtod : StrtodExact strtod) (htoVec : Serializes toVec) :
    protocolParseCommand strtod
        (toVec (connectCommand host port username password width height) ++ [0x0a]) =
      some (.connect (parseConfig (toCJson
        (.object (configFields host port username password width height))))) := by
  have hconfig : JsonValue.Exact 999
      (.object (configFields host port username password width height)) :=
    .object fun field h ↦
      (exact_configFields host port username password width height 997 field h).2
  have hfields : PlainFields [("config", .object
      (configFields host port username password width height)), ("type", .string "connect")] :=
    .cons (.cons plainFields_nil (by decide) (.string _ _)) (by decide) hconfig
  rw [connectCommand_eq, protocolParseCommand_object hfields hstrtod htoVec rfl (by decide)]
  have htyped (json : CJson) : parseTyped json (utf8 "connect") =
      .connect (((json.item "config").map parseConfig).getD {}) := rfl
  rw [htyped, item_toCJson hfields]
  rfl

end Connect

/-- **A command arrives as it was meant if and only if no string of it has U+0000 in it.** -/
theorem arrives_iff {strtod : List UInt8 → CDouble × ℕ} (hstrtod : StrtodExact strtod)
    {toVec : JsonValue → List UInt8} (htoVec : Serializes toVec) (command : SentCommand) :
    protocolParseCommand strtod (toVec command.value ++ [0x0a]) = some command.meant ↔
      command.NulFree := by
  cases command with
  | connect host port username password width height =>
    rw [SentCommand.value, parse_connectCommand host port username password _ _ hstrtod htoVec,
      parseConfig_configFields, SentCommand.meant, SentCommand.NulFree]
    simp only [Option.some.injEq, Command.connect.injEq, ConnectConfig.mk.injEq,
      cString_utf8_eq_iff, true_and, and_true]
  | mouseMove x y => exact iff_of_true (parse_moveCommand hstrtod htoVec x y) trivial
  | mouseButton down x y button =>
    obtain ⟨hdown, hup⟩ := parse_buttonCommand hstrtod htoVec x y button.toNat_lt
    cases down with
    | true => exact iff_of_true hdown trivial
    | false => exact iff_of_true hup trivial
  | mouseScroll x y delta vertical =>
    exact iff_of_true (parse_scrollCommand hstrtod htoVec x y delta vertical) trivial
  | key down stroke =>
    obtain ⟨hdown, hup⟩ := parse_keyCommand hstrtod htoVec stroke
    cases down with
    | true => exact iff_of_true hdown trivial
    | false => exact iff_of_true hup trivial
  | unicodeKey down codeUnit =>
    obtain ⟨hdown, hup⟩ := parse_unicodeCommand hstrtod htoVec codeUnit
    cases down with
    | true => exact iff_of_true hdown trivial
    | false => exact iff_of_true hup trivial
  | resize width height =>
    exact iff_of_true (parse_resizeCommand hstrtod htoVec (clampSize_le _) (clampSize_le _)) trivial

/-- A connection without U+0000 arrives as it was meant. -/
theorem arrives_iff_connect :
    protocolParseCommand strtodInteger
        (compact (SentCommand.connect "host" 3389 "user" "pässword\n" 1024 768).value ++ [0x0a]) =
      some (SentCommand.connect "host" 3389 "user" "pässword\n" 1024 768).meant :=
  (arrives_iff strtodExact_strtodInteger (fun _ _ _ ↦ rfl)
    (.connect "host" 3389 "user" "pässword\n" 1024 768)).2
    ⟨by decide, by decide, by decide⟩

/-- **A password with U+0000 in it arrives cut short**, without any error. -/
theorem nul_password_cut :
    ∃ config, protocolParseCommand strtodInteger
        (compact (SentCommand.connect "host" 3389 "user" "a\x00b" 1024 768).value ++ [0x0a]) =
      some (.connect config) ∧ config.password = some (utf8 "a") ∧
        some (.connect config) ≠
          some (SentCommand.connect "host" 3389 "user" "a\x00b" 1024 768).meant := by
  refine ⟨_, parse_connectCommand "host" 3389 "user" "a\x00b" 1024 768 strtodExact_strtodInteger
    fun _ _ _ ↦ rfl, ?_, ?_⟩
  · rw [parseConfig_configFields]
    exact congrArg some (show cString (utf8 "a\x00b") = utf8 "a" by decide)
  · rw [parseConfig_configFields, SentCommand.meant]
    simp only [ne_eq, Option.some.injEq, Command.connect.injEq, ConnectConfig.mk.injEq]
    rintro ⟨-, -, -, hpassword, -⟩
    exact absurd hpassword (by decide)

end RdpMcp
