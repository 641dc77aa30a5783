import Mathlib.Data.Rat.Defs
import RdpMcp.Json.Value

/-!
# The C parser

cJSON, as far as the native layer uses it: `cJSON_Parse` and the lookup of object items. The parser
works on a buffer with an offset; here it works on **what is left of the buffer**, and a parse
function returns the item and what is left behind it, or `none` where the C function returns false.
The terminating zero byte is part of the buffer. Allocation failures are not modeled.

Three habits of the original are kept because they show:

* a zero byte counts as white space, and skipping white space to the end of the buffer steps back to
  its last byte;
* a hexadecimal escape that is none reads as code point zero;
* arrays and objects may be nested `CJSON_NESTING_LIMIT` deep, counted here as the levels left.

`strtod` is the C library's and a parameter. A number carries the double and the `int` it saturates
to.
-/

namespace RdpMcp

/-- A double, as far as `strtod` produces one from digits, signs, points and exponents. -/
inductive CDouble where
  | finite (value : ℚ)
  | infinite (negative : Bool)
  deriving DecidableEq

/-- The `valueint` of a number: truncated, and saturated at the ends of `int`. -/
def CDouble.valueInt : CDouble → ℤ
  | finite value =>
    if 2147483647 ≤ value then 2147483647
    else if value ≤ -2147483648 then -2147483648
    else value.num.tdiv value.den
  | infinite negative => if negative then -2147483648 else 2147483647

/-- A parsed item. Strings are the bytes before their terminator is looked for. -/
inductive CJson where
  | null
  | bool (b : Bool)
  | number (value : CDouble)
  | string (bytes : List UInt8)
  | array (items : List CJson)
  | object (fields : List (List UInt8 × CJson))

/-! ### White space -/

/-- `buffer_skip_whitespace`. -/
def skipWhitespace (rest : List UInt8) : List UInt8 :=
  match rest.dropWhile (· ≤ 32) with
  | [] => rest.drop (rest.length - 1)
  | left => left

/-! ### Strings -/

/-- The first loop of `parse_string`: find the closing quote of a literal whose opening quote has
been read. The literal, still escaped, and what is left behind it. -/
def scanString : List UInt8 → Option (List UInt8 × List UInt8)
  | [] => none
  | b :: rest =>
    if b = 0x22 then some ([], rest)
    else if b = 0x5c then
      match rest with
      | [] => none
      | c :: rest => (scanString rest).map fun (literal, left) ↦ (b :: c :: literal, left)
    else (scanString rest).map fun (literal, left) ↦ (b :: literal, left)

/-- The value of a hexadecimal digit. -/
def hexValue (b : UInt8) : Option ℕ :=
  if 0x30 ≤ b ∧ b ≤ 0x39 then some (b.toNat - 0x30)
  else if 0x41 ≤ b ∧ b ≤ 0x46 then some (b.toNat - 0x41 + 10)
  else if 0x61 ≤ b ∧ b ≤ 0x66 then some (b.toNat - 0x61 + 10)
  else none

/-- `parse_hex4`: four digits, or zero. -/
def parseHex4 (input : List UInt8) : ℕ :=
  (((input.take 4).mapM hexValue).map (List.foldl (fun h digit ↦ h * 16 + digit) 0)).getD 0

/-- A continuation byte. -/
def continuationByte (codepoint : ℕ) : UInt8 :=
  UInt8.ofNat ((codepoint ||| 0x80) &&& 0xbf)

/-- The end of `utf16_literal_to_utf8`: a code point in UTF-8. -/
def encodeUtf8 (codepoint : ℕ) : Option (List UInt8) :=
  if codepoint < 0x80 then some [UInt8.ofNat (codepoint &&& 0x7f)]
  else if codepoint < 0x800 then
    some [UInt8.ofNat (((codepoint >>> 6) ||| 0xc0) &&& 0xff), continuationByte codepoint]
  else if codepoint < 0x10000 then
    some [UInt8.ofNat (((codepoint >>> 12) ||| 0xe0) &&& 0xff),
      continuationByte (codepoint >>> 6), continuationByte codepoint]
  else if codepoint ≤ 0x10ffff then
    some [UInt8.ofNat (((codepoint >>> 18) ||| 0xf0) &&& 0xff),
      continuationByte (codepoint >>> 12), continuationByte (codepoint >>> 6),
      continuationByte codepoint]
  else none

/-- `utf16_literal_to_utf8`: the bytes of a `\u` literal and the length of the literal. -/
def utf16Literal (input : List UInt8) : Option (List UInt8 × ℕ) :=
  if input.length < 6 then none
  else
    let firstCode := parseHex4 (input.drop 2)
    if 0xdc00 ≤ firstCode ∧ firstCode ≤ 0xdfff then none
    else if 0xd800 ≤ firstCode ∧ firstCode ≤ 0xdbff then
      let second := input.drop 6
      let secondCode := parseHex4 (second.drop 2)
      if second.length < 6 then none
      else if second.take 2 ≠ [0x5c, 0x75] then none
      else if secondCode < 0xdc00 ∨ secondCode > 0xdfff then none
      else (encodeUtf8
        (0x10000 + (((firstCode &&& 0x3ff) <<< 10) ||| (secondCode &&& 0x3ff)))).map (·, 12)
    else (encodeUtf8 firstCode).map (·, 6)

/-- The byte a two-character escape stands for. -/
def simpleEscape (c : UInt8) : Option UInt8 :=
  if c = 0x62 then some 0x08
  else if c = 0x66 then some 0x0c
  else if c = 0x6e then some 0x0a
  else if c = 0x72 then some 0x0d
  else if c = 0x74 then some 0x09
  else if c = 0x22 ∨ c = 0x5c ∨ c = 0x2f then some c
  else none

/-- The second loop of `parse_string`: resolve the escapes. `skip` bytes of the literal have been
dealt with already. -/
def decodeString (skip : ℕ) : List UInt8 → Option (List UInt8)
  | [] => some []
  | b :: rest =>
    if 0 < skip then decodeString (skip - 1) rest
    else if b ≠ 0x5c then (decodeString 0 rest).map (b :: ·)
    else
      match rest with
      -- the first loop never leaves a backslash at the end
      | [] => none
      | c :: _ =>
        match simpleEscape c with
        | some byte => (decodeString 1 rest).map (byte :: ·)
        | none =>
          if c = 0x75 then
            match utf16Literal (b :: rest) with
            | none => none
            | some (bytes, length) => (decodeString (length - 1) rest).map (bytes ++ ·)
          else none

/-- `parse_string`, at its opening quote. -/
def parseString (rest : List UInt8) : Option (List UInt8 × List UInt8) :=
  match rest with
  | [] => none
  | b :: rest =>
    if b ≠ 0x22 then none
    else do
      let (literal, left) ← scanString rest
      return (← decodeString 0 literal, left)

/-! ### Values -/

section Parse

variable (strtod : List UInt8 → CDouble × ℕ)

/-- A byte that can be part of a number. -/
def isNumberByte (b : UInt8) : Bool :=
  (0x30 ≤ b && b ≤ 0x39) || b == 0x2b || b == 0x2d || b == 0x65 || b == 0x45 || b == 0x2e

/-- `parse_number`: hand at most 63 bytes to `strtod`, which says how many it used. -/
def parseNumber (rest : List UInt8) : Option (CJson × List UInt8) :=
  let (number, used) := strtod ((rest.take 63).takeWhile isNumberByte)
  if used = 0 then none else some (.number number, rest.drop used)

/-- The loop of `parse_array`, up to the closing bracket. -/
def parseItems (parse : List UInt8 → Option (CJson × List UInt8)) :
    ℕ → List UInt8 → Option (List CJson × List UInt8)
  | 0, _ => none
  | fuel + 1, rest => do
    let (item, rest) ← parse (skipWhitespace rest)
    match skipWhitespace rest with
    | 0x2c :: rest =>
      let (items, left) ← parseItems parse fuel rest
      return (item :: items, left)
    | 0x5d :: left => return ([item], left)
    | _ => none

/-- The loop of `parse_object`, up to the closing brace. -/
def parseFields (parse : List UInt8 → Option (CJson × List UInt8)) :
    ℕ → List UInt8 → Option (List (List UInt8 × CJson) × List UInt8)
  | 0, _ => none
  | fuel + 1, rest => do
    let (name, rest) ← parseString (skipWhitespace rest)
    match skipWhitespace rest with
    | 0x3a :: rest =>
      let (value, rest) ← parse (skipWhitespace rest)
      match skipWhitespace rest with
      | 0x2c :: rest =>
        let (fields, left) ← parseFields parse fuel rest
        return ((name, value) :: fields, left)
      | 0x7d :: left => return ([(name, value)], left)
      | _ => none
    | _ => none

/-- `parse_array` behind its bracket. Every item takes a byte, so there are at most as many rounds
as bytes. -/
def parseArray (parse : List UInt8 → Option (CJson × List UInt8)) (rest : List UInt8) :
    Option (CJson × List UInt8) :=
  match skipWhitespace rest with
  | 0x5d :: left => some (.array [], left)
  | rest => (parseItems parse rest.length rest).map fun (items, left) ↦ (.array items, left)

/-- `parse_object` behind its brace. -/
def parseObject (parse : List UInt8 → Option (CJson × List UInt8)) (rest : List UInt8) :
    Option (CJson × List UInt8) :=
  match skipWhitespace rest with
  | 0x7d :: left => some (.object [], left)
  | rest => (parseFields parse rest.length rest).map fun (fields, left) ↦ (.object fields, left)

/-- `parse_value`, with the levels of nesting that are left. -/
def parseValue (nesting : ℕ) (rest : List UInt8) : Option (CJson × List UInt8) :=
  if rest.take 4 = utf8 "null" then some (.null, rest.drop 4)
  else if rest.take 5 = utf8 "false" then some (.bool false, rest.drop 5)
  else if rest.take 4 = utf8 "true" then some (.bool true, rest.drop 4)
  else
    match rest with
    | [] => none
    | b :: left =>
      if b = 0x22 then (parseString rest).map fun (bytes, left) ↦ (.string bytes, left)
      else if b = 0x2d ∨ (0x30 ≤ b ∧ b ≤ 0x39) then parseNumber strtod rest
      else if b = 0x5b then
        match nesting with
        | 0 => none
        | nesting + 1 => parseArray (parseValue nesting) left
      else if b = 0x7b then
        match nesting with
        | 0 => none
        | nesting + 1 => parseObject (parseValue nesting) left
      else none

/-- `skip_utf8_bom`. -/
def skipUtf8Bom (buffer : List UInt8) : List UInt8 :=
  if 4 < buffer.length ∧ buffer.take 3 = [0xef, 0xbb, 0xbf] then buffer.drop 3 else buffer

/-- `CJSON_NESTING_LIMIT`. -/
def nestingLimit : ℕ := 1000

/-- `cJSON_Parse` of a C string, given without its terminator. What follows the value is not looked
at. -/
def cJsonParse (text : List UInt8) : Option CJson :=
  (parseValue strtod nestingLimit (skipWhitespace (skipUtf8Bom (text ++ [0])))).map Prod.fst

end Parse

/-! ### Access -/

/-- The C string in a byte buffer. -/
def cString (bytes : List UInt8) : List UInt8 :=
  bytes.takeWhile (· ≠ 0)

/-- `cJSON_GetObjectItemCaseSensitive`. -/
def CJson.item (json : CJson) (name : String) : Option CJson :=
  match json with
  | .object fields => (fields.find? fun field ↦ cString field.1 = utf8 name).map Prod.snd
  | _ => none

end RdpMcp
