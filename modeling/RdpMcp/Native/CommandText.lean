import RdpMcp.Native.CJsonText
import RdpMcp.Native.Command
import RdpMcp.Operations.Operation

/-!
# Commands across the pipe

A command leaves one side as a JSON value and reaches the other as a parsed `Command`. **Fields are
read back under their names** (`item_toCJson`): the C side compares C strings, which is comparing
names as long as no name contains a zero byte. From that, each command an input operation sends is
parsed as the command it was meant to be, with the very numbers it was given.
-/

namespace RdpMcp

/-! ### Fields -/

theorem utf8_injective : Function.Injective utf8 := by
  intro s t h
  have hbytes : s.toUTF8.data = t.toUTF8.data := Array.toList_inj.1 h
  exact String.toByteArray_inj.1 (ByteArray.ext hbytes)

/-- A C string is the whole buffer unless there is a zero byte in it. -/
theorem cString_eq_self_iff {bytes : List UInt8} : cString bytes = bytes ↔ 0 ∉ bytes := by
  rw [cString, List.takeWhile_eq_self_iff]
  constructor
  · intro h hzero
    simpa using h 0 hzero
  · exact fun h b hb ↦ decide_eq_true fun hzero : b = 0 ↦ h (hzero ▸ hb)

theorem cString_of_not_mem {bytes : List UInt8} (h : 0 ∉ bytes) : cString bytes = bytes :=
  cString_eq_self_iff.2 h

/-- The fields of a flat command: no zero byte in a name, and a scalar that is written exactly. -/
def PlainFields (fields : List (String × JsonValue)) : Prop :=
  ∀ field ∈ fields, 0 ∉ utf8 field.1 ∧ field.2.Exact 999

theorem plainFields_nil : PlainFields [] :=
  nofun

theorem PlainFields.cons {key : String} {value : JsonValue} {fields : List (String × JsonValue)}
    (h : PlainFields fields) (hkey : 0 ∉ utf8 key) (hvalue : value.Exact 999) :
    PlainFields ((key, value) :: fields) :=
  List.forall_mem_cons.2 ⟨⟨hkey, hvalue⟩, h⟩

section Fields

variable {fields : List (String × JsonValue)} (hfields : PlainFields fields)
include hfields

/-- **Fields are read back under their names.** -/
theorem item_toCJson (name : String) :
    (toCJson (.object fields)).item name = (fields.lookup name).map toCJson := by
  rw [toCJson, CJson.item]
  induction fields with
  | nil => rfl
  | cons field fields ih =>
    obtain ⟨key, value⟩ := field
    obtain ⟨⟨hkey, -⟩, hrest⟩ := List.forall_mem_cons.1 hfields
    have ih := ih hrest
    rw [toCJsonFields, toCJsonField, List.lookup_cons]
    rcases eq_or_ne name key with rfl | hne
    · simp [cString_of_not_mem hkey]
    · have hutf8 : utf8 key ≠ utf8 name := fun h ↦ hne (utf8_injective h).symm
      have hlookup : (name == key) = false := beq_eq_false_iff_ne.2 hne
      rw [List.find?_cons_of_neg (by simpa [cString_of_not_mem hkey] using hutf8), ih, hlookup]

theorem getString_toCJson {k s : String} (h : fields.lookup k = some (.string s)) :
    (toCJson (.object fields)).getString k = some (cString (utf8 s)) := by
  rw [CJson.getString, item_toCJson hfields, h, Option.map_some, toCJson]

theorem getBool_toCJson {k : String} {b : Bool} (h : fields.lookup k = some (.bool b))
    (default : Bool) : (toCJson (.object fields)).getBool k default = b := by
  rw [CJson.getBool, item_toCJson hfields, h, Option.map_some, toCJson]

/-- An `int` goes through a double unharmed. -/
theorem getInt_toCJson {k : String} {n : ℤ} (h : fields.lookup k = some (.ofInt n))
    (hlow : -2147483648 ≤ n) (hhigh : n < 2147483648) (default : ℤ) :
    (toCJson (.object fields)).getInt k default = n := by
  obtain ⟨-, hn⟩ := JsonNumber.exact_ofInt (n := n) (by omega)
  have hvalue : (CDouble.finite n).valueInt = n := by
    have hlow : (-2147483648 : ℚ) ≤ n := by exact_mod_cast hlow
    have hhigh : (n : ℚ) ≤ 2147483647 := by exact_mod_cast (show n ≤ 2147483647 by omega)
    rw [CDouble.valueInt]
    split_ifs with hmax hmin
    · exact_mod_cast (le_antisymm hhigh hmax).symm
    · exact_mod_cast (le_antisymm hmin hlow).symm
    · simp
  rw [CJson.getInt, item_toCJson hfields, h, Option.map_some, JsonValue.ofInt, toCJson, hn]
  exact hvalue

/-- The coordinates of a command are machine integers. -/
theorem getInt_int32 {k : String} {n : Int32} (h : fields.lookup k = some (.ofInt n.toInt))
    (default : ℤ) : (toCJson (.object fields)).getInt k default = n.toInt :=
  getInt_toCJson hfields h n.le_toInt n.toInt_lt default

variable {strtod : List UInt8 → CDouble × ℕ} {toVec : JsonValue → List UInt8}

/-- A flat object with a type is parsed as a command of that type. -/
theorem protocolParseCommand_object (hstrtod : StrtodExact strtod) (htoVec : Serializes toVec)
    {type : String} (htype : fields.lookup "type" = some (.string type)) (hnul : 0 ∉ utf8 type) :
    protocolParseCommand strtod (toVec (.object fields) ++ [0x0a]) =
      some (parseTyped (toCJson (.object fields)) (utf8 type)) := by
  have hvalue : (JsonValue.object fields).Exact nestingLimit :=
    .object fun field h ↦ (hfields field h).2
  have hne : (compact (.object fields) ++ [0x0a]).isEmpty = false := by simp
  rw [htoVec nestingLimit _ hvalue, protocolParseCommand, hne, cJsonParse_compact hstrtod hvalue]
  simp only [getString_toCJson hfields htype, cString_of_not_mem hnul]
  rfl

end Fields

/-! ### Commands -/

theorem exact_ofInt {n : ℤ} (hlow : -2147483648 ≤ n) (hhigh : n < 2147483648) (m : ℕ) :
    (JsonValue.ofInt n).Exact m :=
  .number m (JsonNumber.exact_ofInt (by omega)).1

theorem exact_int32 (n : Int32) (m : ℕ) : (JsonValue.ofInt n.toInt).Exact m :=
  exact_ofInt n.le_toInt n.toInt_lt m

theorem clampSize_le (n : ℕ) : clampSize n ≤ 8192 := by
  rw [clampSize]
  omega

section Commands

variable {strtod : List UInt8 → CDouble × ℕ} {toVec : JsonValue → List UInt8}
  (hstrtod : StrtodExact strtod) (htoVec : Serializes toVec)
include hstrtod htoVec

theorem parse_moveCommand (x y : Int32) :
    protocolParseCommand strtod (toVec (moveCommand x y) ++ [0x0a]) =
      some (.mouseMove x.toInt y.toInt) := by
  have hcommand : moveCommand x y = .object [("type", .string "mouse_move"),
      ("x", .ofInt x.toInt), ("y", .ofInt y.toInt)] := by
    simp only [moveCommand, JsonValue.record, List.foldl, JsonValue.insertField, String.reduceLT,
      String.reduceEq, if_false]
  have hfields : PlainFields [("type", .string "mouse_move"), ("x", .ofInt x.toInt),
      ("y", .ofInt y.toInt)] :=
    .cons (.cons (.cons plainFields_nil (by decide) (exact_int32 y _)) (by decide)
      (exact_int32 x _)) (by decide) (.string _ _)
  have hx := getInt_int32 hfields (k := "x") rfl 0
  have hy := getInt_int32 hfields (k := "y") rfl 0
  rw [hcommand, protocolParseCommand_object hfields hstrtod htoVec rfl (by decide)]
  exact congrArg some (congrArg₂ Command.mouseMove hx hy)

theorem parse_buttonCommand (x y : Int32) {button : ℕ} (hbutton : button < 256) :
    protocolParseCommand strtod (toVec (buttonCommand "mouse_button_down" x y button) ++ [0x0a]) =
      some (.mouseButtonDown x.toInt y.toInt button) ∧
    protocolParseCommand strtod (toVec (buttonCommand "mouse_button_up" x y button) ++ [0x0a]) =
      some (.mouseButtonUp x.toInt y.toInt button) := by
  have hcommand (type : String) : buttonCommand type x y button =
      .object [("button", .ofInt button), ("type", .string type), ("x", .ofInt x.toInt),
        ("y", .ofInt y.toInt)] := by
    simp only [buttonCommand, JsonValue.record, List.foldl, JsonValue.insertField, String.reduceLT,
      String.reduceEq, if_true, if_false]
  have hfields (type : String) : PlainFields [("button", .ofInt button), ("type", .string type),
      ("x", .ofInt x.toInt), ("y", .ofInt y.toInt)] :=
    .cons (.cons (.cons (.cons plainFields_nil (by decide) (exact_int32 y _)) (by decide)
      (exact_int32 x _)) (by decide) (.string _ _)) (by decide)
      (exact_ofInt (by omega) (by omega) _)
  have hx type := getInt_int32 (hfields type) (k := "x") rfl 0
  have hy type := getInt_int32 (hfields type) (k := "y") rfl 0
  have hb type := getInt_toCJson (hfields type) (k := "button") rfl (by omega) (by omega) 0
  constructor
  · rw [hcommand, protocolParseCommand_object (hfields _) hstrtod htoVec rfl (by decide)]
    change some (Command.mouseButtonDown _ _ _) = _
    rw [hx, hy, hb]
  · rw [hcommand, protocolParseCommand_object (hfields _) hstrtod htoVec rfl (by decide)]
    change some (Command.mouseButtonUp _ _ _) = _
    rw [hx, hy, hb]

theorem parse_scrollCommand (x y delta : Int32) (vertical : Bool) :
    protocolParseCommand strtod (toVec (scrollCommand x y delta vertical) ++ [0x0a]) =
      some (.mouseScroll x.toInt y.toInt delta.toInt vertical) := by
  have hcommand : scrollCommand x y delta vertical = .object [("delta", .ofInt delta.toInt),
      ("type", .string "mouse_scroll"), ("vertical", .bool vertical), ("x", .ofInt x.toInt),
      ("y", .ofInt y.toInt)] := by
    simp only [scrollCommand, JsonValue.record, List.foldl, JsonValue.insertField, String.reduceLT,
      String.reduceEq, if_true, if_false]
  have hfields : PlainFields [("delta", .ofInt delta.toInt), ("type", .string "mouse_scroll"),
      ("vertical", .bool vertical), ("x", .ofInt x.toInt), ("y", .ofInt y.toInt)] :=
    .cons (.cons (.cons (.cons (.cons plainFields_nil (by decide) (exact_int32 y _)) (by decide)
      (exact_int32 x _)) (by decide) (.bool _ _)) (by decide) (.string _ _)) (by decide)
      (exact_int32 delta _)
  have hx := getInt_int32 hfields (k := "x") rfl 0
  have hy := getInt_int32 hfields (k := "y") rfl 0
  have hdelta := getInt_int32 hfields (k := "delta") rfl 0
  have hvertical := getBool_toCJson hfields (k := "vertical") rfl true
  rw [hcommand, protocolParseCommand_object hfields hstrtod htoVec rfl (by decide)]
  change some (Command.mouseScroll _ _ _ _) = _
  rw [hx, hy, hdelta, hvertical]

theorem parse_unicodeCommand (codeUnit : UInt16) :
    protocolParseCommand strtod (toVec (unicodeCommand "unicode_key_down" codeUnit) ++ [0x0a]) =
      some (.unicodeKeyDown codeUnit.toNat) ∧
    protocolParseCommand strtod (toVec (unicodeCommand "unicode_key_up" codeUnit) ++ [0x0a]) =
      some (.unicodeKeyUp codeUnit.toNat) := by
  have hlt := codeUnit.toNat_lt
  have hcommand (type : String) : unicodeCommand type codeUnit =
      .object [("code_unit", .ofInt codeUnit.toNat), ("type", .string type)] := by
    simp only [unicodeCommand, JsonValue.record, List.foldl, JsonValue.insertField, String.reduceLT,
      String.reduceEq, if_true, if_false]
  have hfields (type : String) :
      PlainFields [("code_unit", .ofInt codeUnit.toNat), ("type", .string type)] :=
    .cons (.cons plainFields_nil (by decide) (.string _ _)) (by decide)
      (exact_ofInt (by omega) (by omega) _)
  have hunit type :=
    getInt_toCJson (hfields type) (k := "code_unit") rfl (by omega) (by omega) 0
  constructor
  · rw [hcommand, protocolParseCommand_object (hfields _) hstrtod htoVec rfl (by decide)]
    exact congrArg (some ∘ Command.unicodeKeyDown) (hunit _)
  · rw [hcommand, protocolParseCommand_object (hfields _) hstrtod htoVec rfl (by decide)]
    exact congrArg (some ∘ Command.unicodeKeyUp) (hunit _)

theorem parse_keyCommand (stroke : KeyStroke) :
    protocolParseCommand strtod (toVec (keyCommand stroke true) ++ [0x0a]) =
      some (.keyDown stroke.scancode.toNat stroke.extended) ∧
    protocolParseCommand strtod (toVec (keyCommand stroke false) ++ [0x0a]) =
      some (.keyUp stroke.scancode.toNat stroke.extended) := by
  have hlt := stroke.scancode.toNat_lt
  have hcommand (down : Bool) : keyCommand stroke down =
      .object [("extended", .bool stroke.extended), ("scancode", .ofInt stroke.scancode.toNat),
        ("type", .string (if down then "key_down" else "key_up"))] := by
    simp only [keyCommand, JsonValue.record, List.foldl, JsonValue.insertField, String.reduceLT,
      String.reduceEq, if_true, if_false]
  have hfields (type : String) : PlainFields [("extended", .bool stroke.extended),
      ("scancode", .ofInt stroke.scancode.toNat), ("type", .string type)] :=
    .cons (.cons (.cons plainFields_nil (by decide) (.string _ _)) (by decide)
      (exact_ofInt (by omega) (by omega) _)) (by decide) (.bool _ _)
  have hscancode type :=
    getInt_toCJson (hfields type) (k := "scancode") rfl (by omega) (by omega) 0
  have hextended type := getBool_toCJson (hfields type) (k := "extended") rfl false
  constructor
  · rw [hcommand, protocolParseCommand_object (hfields _) hstrtod htoVec rfl (by decide)]
    exact congrArg some (congrArg₂ Command.keyDown (hscancode _) (hextended _))
  · rw [hcommand, protocolParseCommand_object (hfields _) hstrtod htoVec rfl (by decide)]
    exact congrArg some (congrArg₂ Command.keyUp (hscancode _) (hextended _))

theorem parse_resizeCommand {width height : ℕ} (hwidth : width ≤ 8192) (hheight : height ≤ 8192) :
    protocolParseCommand strtod (toVec (resizeCommand width height) ++ [0x0a]) =
      some (.resize width height 100 100) := by
  have hcommand : resizeCommand width height = .object [("desktopScaleFactor", .ofInt 100),
      ("deviceScaleFactor", .ofInt 100), ("height", .ofInt height), ("type", .string "resize"),
      ("width", .ofInt width)] := by
    simp only [resizeCommand, JsonValue.record, List.foldl, JsonValue.insertField, String.reduceLT,
      String.reduceEq, if_true, if_false]
  have hfields : PlainFields [("desktopScaleFactor", .ofInt 100),
      ("deviceScaleFactor", .ofInt 100), ("height", .ofInt height), ("type", .string "resize"),
      ("width", .ofInt width)] :=
    .cons (.cons (.cons (.cons (.cons plainFields_nil (by decide)
      (exact_ofInt (by omega) (by omega) _)) (by decide) (.string _ _)) (by decide)
      (exact_ofInt (by omega) (by omega) _)) (by decide) (exact_ofInt (by decide) (by decide) _))
      (by decide) (exact_ofInt (by decide) (by decide) _)
  have hw := getInt_toCJson hfields (k := "width") rfl (by omega) (by omega) 1920
  have hh := getInt_toCJson hfields (k := "height") rfl (by omega) (by omega) 1080
  have hdesktop :=
    getInt_toCJson hfields (k := "desktopScaleFactor") rfl (by decide) (by decide) 100
  have hdevice :=
    getInt_toCJson hfields (k := "deviceScaleFactor") rfl (by decide) (by decide) 100
  rw [hcommand, protocolParseCommand_object hfields hstrtod htoVec rfl (by decide)]
  change some (Command.resize _ _ _ _) = _
  rw [hw, hh, hdesktop, hdevice]

end Commands

end RdpMcp
