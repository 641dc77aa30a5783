import Mathlib.Data.Int.Notation
import Mathlib.Data.List.Basic

/-!
# JSON values

The value tree both sides of the worker pipe speak: `serde_json::Value` with its lenient indexing
and its typed readers. `value["key"]` never fails, it reads `null` off anything that is not an
object holding the key; `as_u64` accepts only the non-negative integer representation, `as_str`
only strings.

Text is left out here. Parsing belongs to whoever reads the text, and the sessions below take their
parser as a parameter.
-/

namespace RdpMcp

/-- The bytes of a string. -/
def utf8 (s : String) : List UInt8 :=
  s.toUTF8.data.toList

/-- `serde_json::Number`: an integer that fits `u64`, a negative one that fits `i64`, or the bits of
a double. -/
inductive JsonNumber where
  | posInt (n : UInt64)
  | negInt (n : Int64)
  | float (bits : UInt64)
  deriving DecidableEq, Repr

namespace JsonNumber

/-- The number an integer converts to. -/
def ofInt (n : ℤ) : JsonNumber :=
  if 0 ≤ n then posInt (UInt64.ofNat n.toNat) else negInt (Int64.ofInt n)

/-- The integer a number holds, unless it is a double. -/
def toInt : JsonNumber → Option ℤ
  | posInt n => some n.toNat
  | negInt n => some n.toInt
  | float _ => none

end JsonNumber

/-- `serde_json::Value`. -/
inductive JsonValue where
  | null
  | bool (b : Bool)
  | number (n : JsonNumber)
  | string (s : String)
  | array (items : List JsonValue)
  | object (fields : List (String × JsonValue))
  deriving Repr

namespace JsonValue

/-- `value[key]`: the field of an object, and `null` for everything else. -/
def index (value : JsonValue) (key : String) : JsonValue :=
  match value with
  | object fields => (fields.lookup key).getD null
  | _ => null

/-- `Value::as_u64`. -/
def asU64 : JsonValue → Option UInt64
  | number (.posInt n) => some n
  | _ => none

/-- `Value::as_str`. -/
def asStr : JsonValue → Option String
  | string s => some s
  | _ => none

/-- An integer as a value. -/
def ofInt (n : ℤ) : JsonValue :=
  number (.ofInt n)

/-- Insert a field into fields kept in the order of their keys; a field with the same key is
replaced. -/
def insertField : List (String × JsonValue) → String × JsonValue → List (String × JsonValue)
  | [], entry => [entry]
  | head :: rest, entry =>
    if entry.1 < head.1 then entry :: head :: rest
    else if entry.1 = head.1 then entry :: rest
    else head :: insertField rest entry

/-- An object with the given fields. `serde_json::Map` keeps its keys in order. -/
def record (fields : List (String × JsonValue)) : JsonValue :=
  object (fields.foldl insertField [])

end JsonValue

end RdpMcp
