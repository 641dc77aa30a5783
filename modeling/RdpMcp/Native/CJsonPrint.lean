import Mathlib.Algebra.Order.Ring.Rat
import RdpMcp.Foundations.CheckedBuffer
import RdpMcp.Json.Text
import RdpMcp.Native.CJson

/-!
# The C printer

`cJSON_PrintUnformatted`. The printer writes into a buffer that grows on demand, through an offset
that lags behind: what a function has printed is counted only afterwards, by looking for the zero
byte at its end (`update_offset`). **Every access to the buffer is checked here**, so that an access
beyond it shows as undefined.

`text` is what is printed, without any buffer. Strings are C strings, and a number is printed as an
`int` where it is one, else with 15 digits, and with 17 if 15 do not bring it back. `sprintf` and
`sscanf` are the C library's, as is `realloc`, which may fail.
-/

open CheckedBuffer

namespace RdpMcp

/-! ### What is printed -/

section Text

variable (sprintf : ℕ → ℚ → List UInt8) (sscanf : List UInt8 → Option CDouble)

/-- `compare_double`, in exact arithmetic. The distance of an infinite double is infinite, and so is
its bound. -/
def compareDouble (a : CDouble) (b : ℚ) : Bool :=
  match a with
  | .finite a => |a - b| ≤ max |a| |b| * (1 / 4503599627370496)
  | .infinite _ => true

/-- The text of `print_number`. -/
def printedNumber (value : CDouble) : List UInt8 :=
  match value with
  | .infinite _ => utf8 "null"
  | .finite d =>
    if d = ((CDouble.finite d).valueInt : ℚ) then integerText (CDouble.finite d).valueInt
    else
      let short := sprintf 15 d
      match sscanf short with
      | some test => if compareDouble test d then short else sprintf 17 d
      | none => sprintf 17 d

/-- The text of `print_string_ptr`. -/
def printedString (bytes : List UInt8) : List UInt8 :=
  0x22 :: (cString bytes).flatMap escapeByte ++ [0x22]

mutual

/-- **The text of an item.** -/
def CJson.text : CJson → List UInt8
  | .null => utf8 "null"
  | .bool true => utf8 "true"
  | .bool false => utf8 "false"
  | .number value => printedNumber sprintf sscanf value
  | .string bytes => printedString bytes
  | .array items => 0x5b :: itemsText items ++ [0x5d]
  | .object fields => 0x7b :: fieldsText fields ++ [0x7d]

/-- The items of an array. -/
def itemsText : List CJson → List UInt8
  | [] => []
  | [item] => item.text
  | item :: items => item.text ++ 0x2c :: itemsText items

/-- The fields of an object. -/
def fieldsText : List (List UInt8 × CJson) → List UInt8
  | [] => []
  | [(name, item)] => printedString name ++ 0x3a :: item.text
  | (name, item) :: fields => printedString name ++ 0x3a :: item.text ++ 0x2c :: fieldsText fields

end

end Text

/-! ### The buffer -/

/-- `INT_MAX`. -/
def intMax : ℕ := 2147483647

/-- `printbuffer`: the allocation and the offset. -/
structure PrintBuffer where
  bytes : List UInt8
  offset : ℕ
  deriving Repr

namespace PrintBuffer

/-- `ensure`: room for `needed` bytes and a terminator behind the offset. -/
def ensure (realloc : List UInt8 → ℕ → Option (List UInt8)) (needed : ℕ) (p : PrintBuffer) :
    Checked PrintBuffer :=
  let grow (size : ℕ) : Checked PrintBuffer :=
    match realloc p.bytes size with
    | some bytes => .ok { p with bytes }
    | none => .error .failed
  if 0 < p.bytes.length ∧ p.bytes.length ≤ p.offset then .error .failed
  else if intMax < needed then .error .failed
  else
    let needed := needed + p.offset + 1
    if needed ≤ p.bytes.length then .ok p
    else if intMax / 2 < needed then if needed ≤ intMax then grow intMax else .error .failed
    else grow (needed * 2)

/-- Write behind the offset. -/
def write (i : ℕ) (new : List UInt8) (p : PrintBuffer) : Checked PrintBuffer :=
  (store p.bytes (p.offset + i) new).map fun bytes ↦ { p with bytes }

/-- Move the offset. -/
def advance (n : ℕ) (p : PrintBuffer) : PrintBuffer :=
  { p with offset := p.offset + n }

/-- `update_offset`: `strlen` behind the offset. -/
def updateOffset (p : PrintBuffer) : Checked PrintBuffer :=
  match (p.bytes.drop p.offset).findIdx? (· = 0) with
  | some length => .ok (p.advance length)
  | none => .error .undefined

end PrintBuffer

/-! ### Printing -/

/-- How many bytes a character takes beyond itself. -/
def escapeCharacters (b : UInt8) : ℕ :=
  if b = 0x22 ∨ b = 0x5c ∨ b = 0x08 ∨ b = 0x0c ∨ b = 0x0a ∨ b = 0x0d ∨ b = 0x09 then 1
  else if b < 32 then 5
  else 0

section Print

variable (sprintf : ℕ → ℚ → List UInt8) (sscanf : List UInt8 → Option CDouble)
  (realloc : List UInt8 → ℕ → Option (List UInt8))

open PrintBuffer

/-- What the loop of `print_string_ptr` stores for a character; `sprintf` puts a terminator behind
a code point. -/
def escapeStores (b : UInt8) : List UInt8 :=
  if 31 < b ∧ b ≠ 0x22 ∧ b ≠ 0x5c then [b]
  else
    0x5c ::
      if b = 0x5c then [0x5c]
      else if b = 0x22 then [0x22]
      else if b = 0x08 then [0x62]
      else if b = 0x0c then [0x66]
      else if b = 0x0a then [0x6e]
      else if b = 0x0d then [0x72]
      else if b = 0x09 then [0x74]
      else [0x75, 0x30, 0x30, hexDigit (b / 16), hexDigit (b % 16), 0]

/-- The loop over the characters, the next of which goes to index `i`. -/
def printCharacters : ℕ → List UInt8 → PrintBuffer → Checked PrintBuffer
  | _, [], p => .ok p
  | i, b :: bytes, p => do
    let p ← p.write i (escapeStores b)
    printCharacters (i + 1 + escapeCharacters b) bytes p

/-- The characters are copied at once where none of them takes more. -/
def printInput (input : List UInt8) (extra : ℕ) (p : PrintBuffer) : Checked PrintBuffer :=
  if extra = 0 then p.write 1 input else printCharacters 1 input p

/-- `print_string_ptr`. -/
def printStringPtr (bytes : List UInt8) (p : PrintBuffer) : Checked PrintBuffer := do
  let input := cString bytes
  let extra := (input.map escapeCharacters).sum
  let length := input.length + extra
  let p ← p.ensure realloc (length + 3)
  let p ← p.write 0 [0x22]
  let p ← printInput input extra p
  let p ← p.write (length + 1) [0x22]
  p.write (length + 2) [0]

/-- `print_number`. -/
def printNumber (value : CDouble) (p : PrintBuffer) : Checked PrintBuffer := do
  let text := printedNumber sprintf sscanf value
  if 25 < text.length then throw .failed
  let p ← p.ensure realloc (text.length + 1)
  let p ← p.write 0 text
  let p ← p.write text.length [0]
  return p.advance text.length

mutual

/-- `print_value`. -/
def printValue : CJson → PrintBuffer → Checked PrintBuffer
  | .null, p => do (← p.ensure realloc 5).write 0 (utf8 "null" ++ [0])
  | .bool false, p => do (← p.ensure realloc 6).write 0 (utf8 "false" ++ [0])
  | .bool true, p => do (← p.ensure realloc 5).write 0 (utf8 "true" ++ [0])
  | .number value, p => printNumber sprintf sscanf realloc value p
  | .string bytes, p => printStringPtr realloc bytes p
  | .array items, p => do
    let p ← p.ensure realloc 1
    let p ← p.write 0 [0x5b]
    let p ← printItems items (p.advance 1)
    let p ← p.ensure realloc 2
    p.write 0 [0x5d, 0]
  | .object fields, p => do
    let p ← p.ensure realloc 2
    let p ← p.write 0 [0x7b]
    let p ← printFields fields (p.advance 1)
    let p ← p.ensure realloc 2
    p.write 0 [0x7d, 0]

/-- The loop of `print_array`. -/
def printItems : List CJson → PrintBuffer → Checked PrintBuffer
  | [], p => .ok p
  | item :: items, p => do
    let p ← printValue item p
    let p ← p.updateOffset
    if items.isEmpty then printItems items p
    else
      let p ← p.ensure realloc 2
      let p ← p.write 0 [0x2c, 0]
      printItems items (p.advance 1)

/-- The loop of `print_object`. -/
def printFields : List (List UInt8 × CJson) → PrintBuffer → Checked PrintBuffer
  | [], p => .ok p
  | (name, item) :: fields, p => do
    let p ← printStringPtr realloc name p
    let p ← p.updateOffset
    let p ← p.ensure realloc 1
    let p ← p.write 0 [0x3a]
    let p ← printValue item (p.advance 1)
    let p ← p.updateOffset
    if fields.isEmpty then
      let p ← p.ensure realloc 1
      let p ← p.write 0 [0]
      printFields fields p
    else
      let p ← p.ensure realloc 2
      let p ← p.write 0 [0x2c, 0]
      printFields fields (p.advance 1)

end

/-- `cJSON_PrintUnformatted`: the C string, from the first allocation on, which may fail. -/
def cJsonPrintUnformatted (first : Option (List UInt8)) (item : CJson) :
    Checked (List UInt8) := do
  match first with
  | none => throw .failed
  | some bytes =>
    let p ← printValue sprintf sscanf realloc item { bytes, offset := 0 }
    let p ← p.updateOffset
    match realloc p.bytes (p.offset + 1) with
    | none => throw .failed
    | some printed => return cString printed

end Print

end RdpMcp
