import Mathlib.Data.Nat.Digits.Defs
import RdpMcp.Json.Value

/-!
# JSON text

The compact JSON text of a value: no blanks, integers in decimal, strings in quotes with the two
structural characters and the control characters escaped and every other byte as it is. This is the
interchange format of the worker pipe, so it is stated **as a specification**, apart from the two
programs that write and read it: the writer is a library (`Serializes` says what is expected of
it), the reader is the C parser of the native layer.

Doubles have no text here. No command carries one, and `Exact` keeps them out, together with
integers that a double cannot hold.
-/

namespace RdpMcp

/-! ### Numbers -/

/-- The decimal digits of a number. -/
def decimal (n : ℕ) : List UInt8 :=
  if n = 0 then [0x30] else (Nat.digits 10 n).reverse.map fun d ↦ UInt8.ofNat (0x30 + d)

/-- The text of an integer. -/
def integerText (n : ℤ) : List UInt8 :=
  if n < 0 then 0x2d :: decimal n.natAbs else decimal n.natAbs

/-- The text of a number, for integers. -/
def numberText (n : JsonNumber) : List UInt8 :=
  integerText (n.toInt.getD 0)

/-! ### Strings -/

/-- A lowercase hexadecimal digit. -/
def hexDigit (n : UInt8) : UInt8 :=
  if n < 10 then 0x30 + n else 0x57 + n

/-- One byte of a string, escaped where it has to be. -/
def escapeByte (b : UInt8) : List UInt8 :=
  if b = 0x22 ∨ b = 0x5c then [0x5c, b]
  else if b = 0x08 then [0x5c, 0x62]
  else if b = 0x09 then [0x5c, 0x74]
  else if b = 0x0a then [0x5c, 0x6e]
  else if b = 0x0c then [0x5c, 0x66]
  else if b = 0x0d then [0x5c, 0x72]
  else if b < 0x20 then [0x5c, 0x75, 0x30, 0x30, hexDigit (b / 16), hexDigit (b % 16)]
  else [b]

/-- Literals have no control characters. -/
theorem blank_le_of_all {bytes : List UInt8} (h : bytes.all (0x20 ≤ ·) = true) {c : UInt8}
    (hc : c ∈ bytes) : 0x20 ≤ c :=
  of_decide_eq_true (List.all_eq_true.1 h c hc)

/-- Nothing that is escaped is below the blank. -/
theorem blank_le_of_mem_escapeByte {b c : UInt8} (h : c ∈ escapeByte b) : 0x20 ≤ c := by
  have hcontrol : ∀ n : Fin 32, 0x20 ≤ hexDigit (UInt8.ofNat n / 16) ∧
      0x20 ≤ hexDigit (UInt8.ofNat n % 16) := by
    decide
  rw [escapeByte] at h
  split_ifs at h with hquote h8 h9 ha hc hd hlow
  · rcases List.mem_pair.1 h with rfl | rfl
    · decide
    · rcases hquote with rfl | rfl <;> decide
  all_goals try (rcases List.mem_pair.1 h with rfl | rfl <;> decide)
  · have hdigits := hcontrol ⟨b.toNat, hlow⟩
    rw [UInt8.ofNat_toNat] at hdigits
    simp only [List.mem_cons, List.not_mem_nil, or_false] at h
    rcases h with rfl | rfl | rfl | rfl | rfl | rfl
    · decide
    · decide
    · decide
    · decide
    · exact hdigits.1
    · exact hdigits.2
  · obtain rfl := List.mem_singleton.1 h
    exact UInt8.not_lt.1 hlow

/-- The text of a string. -/
def stringText (s : String) : List UInt8 :=
  0x22 :: (utf8 s).flatMap escapeByte ++ [0x22]

/-! ### Values -/

mutual

/-- **The compact text of a value.** -/
def compact : JsonValue → List UInt8
  | .null => utf8 "null"
  | .bool true => utf8 "true"
  | .bool false => utf8 "false"
  | .number n => numberText n
  | .string s => stringText s
  | .array items => 0x5b :: compactItems items ++ [0x5d]
  | .object fields => 0x7b :: compactFields fields ++ [0x7d]

/-- The items of an array, separated by commas. -/
def compactItems : List JsonValue → List UInt8
  | [] => []
  | [value] => compact value
  | value :: others => compact value ++ 0x2c :: compactItems others

/-- One field of an object. -/
def compactField : String × JsonValue → List UInt8
  | (key, value) => stringText key ++ 0x3a :: compact value

/-- The fields of an object, separated by commas. -/
def compactFields : List (String × JsonValue) → List UInt8
  | [] => []
  | [field] => compactField field
  | field :: others => compactField field ++ 0x2c :: compactFields others

end

theorem compactItems_cons_cons (value next : JsonValue) (others : List JsonValue) :
    compactItems (value :: next :: others) =
      compact value ++ 0x2c :: compactItems (next :: others) := by
  rw [compactItems]
  exact nofun

theorem compactFields_cons_cons (field next : String × JsonValue)
    (others : List (String × JsonValue)) :
    compactFields (field :: next :: others) =
      compactField field ++ 0x2c :: compactFields (next :: others) := by
  rw [compactFields]
  exact nofun

/-- An integer that a double holds exactly. -/
def JsonNumber.Exact (n : JsonNumber) : Prop :=
  ∃ i : ℤ, n.toInt = some i ∧ i.natAbs ≤ 9007199254740992

/-- At most `n` levels of arrays and objects, and every number an integer that a double holds
exactly. -/
inductive JsonValue.Exact : ℕ → JsonValue → Prop
  | null (n : ℕ) : Exact n .null
  | bool (n : ℕ) (b : Bool) : Exact n (.bool b)
  | number (n : ℕ) {x : JsonNumber} (h : x.Exact) : Exact n (.number x)
  | string (n : ℕ) (s : String) : Exact n (.string s)
  | array {n : ℕ} {items : List JsonValue} (h : ∀ item ∈ items, Exact n item) :
      Exact (n + 1) (.array items)
  | object {n : ℕ} {fields : List (String × JsonValue)} (h : ∀ field ∈ fields, Exact n field.2) :
      Exact (n + 1) (.object fields)

/-- What the worker pipe relies on `serde_json::to_vec` for. -/
def Serializes (toVec : JsonValue → List UInt8) : Prop :=
  ∀ n value, value.Exact n → toVec value = compact value

theorem JsonNumber.exact_ofInt {n : ℤ} (h : n.natAbs ≤ 9007199254740992) :
    (JsonNumber.ofInt n).Exact ∧ (JsonNumber.ofInt n).toInt = some n := by
  have hround : (JsonNumber.ofInt n).toInt = some n := by
    rw [JsonNumber.ofInt]
    split
    case isTrue hpos =>
      rw [toInt, UInt64.toNat_ofNat_of_lt' (show n.toNat < 2 ^ 64 by omega)]
      exact congrArg some (Int.toNat_of_nonneg hpos)
    case isFalse hneg =>
      rw [toInt, Int64.toInt_ofInt_of_le (by omega) (by omega)]
  exact ⟨⟨n, hround, h⟩, hround⟩

end RdpMcp
