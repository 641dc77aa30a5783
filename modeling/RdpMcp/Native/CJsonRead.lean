import RdpMcp.Foundations.CheckedBuffer
import RdpMcp.Native.CJson

/-!
# The C parser in its buffer

`cJSON_Parse` as it works: on a buffer with an offset, which it moves itself. **Every access is
checked here**, to the text and to what is allocated for a string, so that one beyond the buffer
shows as undefined; so does a loop that does not come to its end.

A string is read twice. The first loop looks for the closing quote and counts the bytes that escapes
save, `allocate` gets as many as are left, and the second loop writes there without looking. It need
not see the same escapes: a hexadecimal escape takes six bytes, whatever they are, and may take a
backslash from an escape behind it. What is left of that escape may then be a backslash in front of
the closing quote, which is read as an escaped one.

`malloc` and `strtod` are the C library's. What `malloc` answers may depend on where in the text the
parser stands; it does not allocate twice at one place.
-/

open CheckedBuffer

namespace RdpMcp

namespace CJsonRead

/-- `allocate` of the hooks, at a place in the text; the item that is parsed first comes before it.
-/
def allocate (malloc : ℕ → ℕ → Option (List UInt8)) (place size : ℕ) : Checked (List UInt8) :=
  match malloc place size with
  | some bytes => .ok bytes
  | none => .error .failed

variable (strtod : List UInt8 → CDouble × ℕ) (malloc : ℕ → ℕ → Option (List UInt8))
  (content : List UInt8)

/-! ### White space and words -/

/-- The loop of `buffer_skip_whitespace`, with the number of bytes that are left. -/
def skipBlanks : ℕ → ℕ → Checked ℕ
  | 0, offset => .ok offset
  | left + 1, offset => do
    if (← load content offset) ≤ 32 then skipBlanks left (offset + 1) else return offset

/-- `buffer_skip_whitespace`. -/
def bufferSkipWhitespace (offset : ℕ) : Checked ℕ := do
  if content.length ≤ offset then return offset
  let offset ← skipBlanks content (content.length - offset) offset
  return if offset = content.length then offset - 1 else offset

/-- `strncmp` with a word. -/
def startsWith : ℕ → List UInt8 → Checked Bool
  | _, [] => .ok true
  | offset, b :: word => do
    if (← load content offset) = b then startsWith (offset + 1) word else return false

/-- `can_read` and `strncmp`. -/
def canReadWord (offset : ℕ) (word : List UInt8) : Checked Bool :=
  if offset + word.length ≤ content.length then startsWith content offset word else .ok false

/-- `skip_utf8_bom`. -/
def skipUtf8Bom : Checked ℕ := do
  if content.length ≤ 4 then return 0
  return if ← startsWith content 0 [0xef, 0xbb, 0xbf] then 3 else 0

/-! ### Numbers -/

/-- The loop of `parse_number`, with the room that is left in `number_c_string`. -/
def numberBytes : ℕ → ℕ → Checked (List UInt8)
  | 0, _ => .ok []
  | room + 1, offset => do
    if content.length ≤ offset then return []
    let b ← load content offset
    if isNumberByte b then return b :: (← numberBytes room (offset + 1)) else return []

/-- `parse_number`. -/
def parseNumber (offset : ℕ) : Checked (CJson × ℕ) := do
  let bytes ← numberBytes content 63 offset
  let numberCString ← store (List.replicate 64 0) 0 (bytes ++ [0])
  let (number, used) := strtod (cString numberCString)
  if used = 0 then throw .failed
  return (.number number, offset + used)

/-! ### Strings -/

/-- The loop of `parse_hex4`. -/
def hexDigits : ℕ → ℕ → ℕ → Checked ℕ
  | 0, _, h => .ok h
  | n + 1, offset, h => do
    match hexValue (← load content offset) with
    | some digit => hexDigits n (offset + 1) (h * 16 + digit)
    | none => return 0

/-- `parse_hex4`. -/
def parseHex4 (offset : ℕ) : Checked ℕ :=
  hexDigits content 4 offset 0

/-- The second half of a surrogate pair in `utf16_literal_to_utf8`: the code point. -/
def secondSequence (pointer inputEnd firstCode : ℕ) : Checked ℕ := do
  if inputEnd < pointer + 6 then throw .failed
  if (← load content pointer) ≠ 0x5c then throw .failed
  if (← load content (pointer + 1)) ≠ 0x75 then throw .failed
  let secondCode ← parseHex4 content (pointer + 2)
  if secondCode < 0xdc00 ∨ secondCode > 0xdfff then throw .failed
  return 0x10000 + (((firstCode &&& 0x3ff) <<< 10) ||| (secondCode &&& 0x3ff))

/-- The end of `utf16_literal_to_utf8`. -/
def encoded (codepoint length : ℕ) : Checked (List UInt8 × ℕ) :=
  match encodeUtf8 codepoint with
  | some bytes => .ok (bytes, length)
  | none => .error .failed

/-- `utf16_literal_to_utf8`: what it writes, and the length of the literal. -/
def utf16LiteralToUtf8 (pointer inputEnd : ℕ) : Checked (List UInt8 × ℕ) := do
  if inputEnd < pointer + 6 then throw .failed
  let firstCode ← parseHex4 content (pointer + 2)
  if 0xdc00 ≤ firstCode ∧ firstCode ≤ 0xdfff then throw .failed
  if 0xd800 ≤ firstCode ∧ firstCode ≤ 0xdbff then
    encoded (← secondSequence content (pointer + 6) inputEnd firstCode) 12
  else encoded firstCode 6

/-- The first loop of `parse_string`: where the closing quote is, and how many bytes are skipped. -/
def scanString : ℕ → ℕ → ℕ → Checked (ℕ × ℕ)
  | 0, _, _ => .error .undefined
  | left + 1, inputEnd, skipped => do
    if content.length ≤ inputEnd then throw .failed
    let b ← load content inputEnd
    if b = 0x22 then return (inputEnd, skipped)
    else if b = 0x5c then
      if content.length ≤ inputEnd + 1 then throw .failed
      scanString left (inputEnd + 2) (skipped + 1)
    else scanString left (inputEnd + 1) skipped

/-- The second loop of `parse_string`: the output, and where it ends. -/
def decodeString (inputEnd : ℕ) : ℕ → ℕ → List UInt8 → ℕ → Checked (List UInt8 × ℕ)
  | 0, _, _, _ => .error .undefined
  | left + 1, inputPointer, output, outputPointer => do
    if inputEnd ≤ inputPointer then return (output, outputPointer)
    let b ← load content inputPointer
    if b ≠ 0x5c then
      decodeString inputEnd left (inputPointer + 1) (← store output outputPointer [b])
        (outputPointer + 1)
    else
      let c ← load content (inputPointer + 1)
      match simpleEscape c with
      | some byte =>
        decodeString inputEnd left (inputPointer + 2) (← store output outputPointer [byte])
          (outputPointer + 1)
      | none =>
        if c = 0x75 then
          let (bytes, length) ← utf16LiteralToUtf8 content inputPointer inputEnd
          decodeString inputEnd left (inputPointer + length) (← store output outputPointer bytes)
            (outputPointer + bytes.length)
        else throw .failed

/-- `parse_string`. -/
def parseString (offset : ℕ) : Checked (List UInt8 × ℕ) := do
  if (← load content offset) ≠ 0x22 then throw .failed
  let (inputEnd, skipped) ← scanString content (content.length - offset) (offset + 1) 0
  let output ← allocate malloc (offset + 1) (inputEnd - offset - skipped + 1)
  let (output, outputPointer) ←
    decodeString content inputEnd (inputEnd - offset) (offset + 1) output 0
  let output ← store output outputPointer [0]
  return (output.take outputPointer, inputEnd + 1)

/-! ### Values -/

/-- `sizeof(cJSON)`. -/
def itemSize : ℕ := 64

/-- The loop of `parse_array`. The offset is in front of the item. -/
def parseItems (parse : ℕ → Checked (CJson × ℕ)) : ℕ → ℕ → Checked (List CJson × ℕ)
  | 0, _ => .error .undefined
  | left + 1, offset => do
    let _ ← allocate malloc (offset + 1) itemSize
    let offset ← bufferSkipWhitespace content (offset + 1)
    let (item, offset) ← parse offset
    let offset ← bufferSkipWhitespace content offset
    if content.length ≤ offset then throw .failed
    let b ← load content offset
    if b = 0x2c then
      let (items, offset) ← parseItems parse left offset
      return (item :: items, offset)
    else if b = 0x5d then return ([item], offset + 1)
    else throw .failed

/-- `parse_array`. -/
def parseArray (parse : ℕ → Checked (CJson × ℕ)) (offset : ℕ) : Checked (CJson × ℕ) := do
  if (← load content offset) ≠ 0x5b then throw .failed
  let offset ← bufferSkipWhitespace content (offset + 1)
  if content.length ≤ offset then throw .failed
  if (← load content offset) = 0x5d then return (.array [], offset + 1)
  let (items, offset) ←
    parseItems malloc content parse (content.length - offset) (offset - 1)
  return (.array items, offset)

/-- The loop of `parse_object`. -/
def parseFields (parse : ℕ → Checked (CJson × ℕ)) :
    ℕ → ℕ → Checked (List (List UInt8 × CJson) × ℕ)
  | 0, _ => .error .undefined
  | left + 1, offset => do
    let _ ← allocate malloc (offset + 1) itemSize
    if content.length ≤ offset + 1 then throw .failed
    let offset ← bufferSkipWhitespace content (offset + 1)
    let (name, offset) ← parseString malloc content offset
    let offset ← bufferSkipWhitespace content offset
    if content.length ≤ offset then throw .failed
    if (← load content offset) ≠ 0x3a then throw .failed
    let offset ← bufferSkipWhitespace content (offset + 1)
    let (value, offset) ← parse offset
    let offset ← bufferSkipWhitespace content offset
    if content.length ≤ offset then throw .failed
    let b ← load content offset
    if b = 0x2c then
      let (fields, offset) ← parseFields parse left offset
      return ((name, value) :: fields, offset)
    else if b = 0x7d then return ([(name, value)], offset + 1)
    else throw .failed

/-- `parse_object`. -/
def parseObject (parse : ℕ → Checked (CJson × ℕ)) (offset : ℕ) : Checked (CJson × ℕ) := do
  if content.length ≤ offset then throw .failed
  if (← load content offset) ≠ 0x7b then throw .failed
  let offset ← bufferSkipWhitespace content (offset + 1)
  if content.length ≤ offset then throw .failed
  if (← load content offset) = 0x7d then return (.object [], offset + 1)
  let (fields, offset) ←
    parseFields malloc content parse (content.length - offset) (offset - 1)
  return (.object fields, offset)

/-- `parse_value`, with `parse` for the values inside an array or an object; none where the limit of
nesting is reached. -/
def parseValueWith (parse : Option (ℕ → Checked (CJson × ℕ))) (offset : ℕ) :
    Checked (CJson × ℕ) := do
  if ← canReadWord content offset (utf8 "null") then return (.null, offset + 4)
  if ← canReadWord content offset (utf8 "false") then return (.bool false, offset + 5)
  if ← canReadWord content offset (utf8 "true") then return (.bool true, offset + 4)
  if content.length ≤ offset then throw .failed
  let b ← load content offset
  if b = 0x22 then
    let (bytes, offset) ← parseString malloc content offset
    return (.string bytes, offset)
  else if b = 0x2d ∨ (0x30 ≤ b ∧ b ≤ 0x39) then parseNumber strtod content offset
  else if b = 0x5b then
    match parse with
    | none => throw .failed
    | some parse => parseArray malloc content parse offset
  else if b = 0x7b then
    match parse with
    | none => throw .failed
    | some parse => parseObject malloc content parse offset
  else throw .failed

/-- `parse_value`, with the levels of nesting that are left. -/
def parseValue : ℕ → ℕ → Checked (CJson × ℕ)
  | 0 => parseValueWith strtod malloc content none
  | nesting + 1 => parseValueWith strtod malloc content (some (parseValue nesting))

/-- `cJSON_Parse` of a C string, given without its terminator. -/
def cJsonParse (text : List UInt8) : Checked CJson := do
  let content := text ++ [0]
  let _ ← allocate malloc 0 itemSize
  let offset ← skipUtf8Bom content
  let offset ← bufferSkipWhitespace content offset
  let (item, _) ← parseValue strtod malloc content nestingLimit offset
  return item

end CJsonRead

end RdpMcp
