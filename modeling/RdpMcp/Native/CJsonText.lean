import Mathlib.Data.List.TakeWhile
import Mathlib.Data.Nat.Digits.Lemmas
import Mathlib.Tactic.NormNum
import Mathlib.Algebra.Order.Group.Nat
import RdpMcp.Json.Text
import RdpMcp.Native.CJson

/-!
# The C parser reads compact text

**Whatever value is written compactly, the C parser reads back**: `parseValue_compact`, for every
value whose nesting the parser allows and whose numbers a double holds. The parser is handed the
text with anything behind it that does not continue a number, and leaves exactly that behind.

Three readers, three lemmas: `parseString_stringText` undoes the escapes byte by byte,
`parseNumber_integerText` is where the C library's `strtod` comes in (`StrtodExact` is what it is
relied on for), and the loops over items and fields are inductions over the lists.
-/

namespace RdpMcp

/-! ### White space -/

@[simp]
theorem skipWhitespace_cons {b : UInt8} (hb : 32 < b) (rest : List UInt8) :
    skipWhitespace (b :: rest) = b :: rest := by
  have hdrop : (b :: rest).dropWhile (· ≤ 32) = b :: rest :=
    List.dropWhile_cons_of_neg (by simpa using hb)
  rw [skipWhitespace, hdrop]

/-! ### Strings -/

/-- The three shapes of an escaped byte, each with what the parser needs to undo it. -/
theorem escapeByte_cases (b : UInt8) :
    (escapeByte b = [b] ∧ b ≠ 0x22 ∧ b ≠ 0x5c) ∨
    (∃ c, escapeByte b = [0x5c, c] ∧ simpleEscape c = some b) ∨
    (∃ high low, escapeByte b = [0x5c, 0x75, 0x30, 0x30, high, low] ∧
      high ≠ 0x22 ∧ high ≠ 0x5c ∧ low ≠ 0x22 ∧ low ≠ 0x5c ∧
      parseHex4 [0x30, 0x30, high, low] = b.toNat ∧ encodeUtf8 b.toNat = some [b]) := by
  have hcontrol : ∀ n : Fin 32, ∀ b, b = UInt8.ofNat n →
      hexDigit (b / 16) ≠ 0x22 ∧ hexDigit (b / 16) ≠ 0x5c ∧ hexDigit (b % 16) ≠ 0x22 ∧
      hexDigit (b % 16) ≠ 0x5c ∧
      parseHex4 [0x30, 0x30, hexDigit (b / 16), hexDigit (b % 16)] = b.toNat ∧
      encodeUtf8 b.toNat = some [b] := by
    rintro n b rfl
    revert n
    decide
  rw [escapeByte]
  split
  case isTrue h =>
    refine .inr (.inl ⟨b, rfl, ?_⟩)
    rcases h with rfl | rfl <;> rfl
  case isFalse h =>
    push Not at h
    split_ifs with h8 h9 ha hc hd hlow
    · exact .inr (.inl ⟨0x62, rfl, h8 ▸ rfl⟩)
    · exact .inr (.inl ⟨0x74, rfl, h9 ▸ rfl⟩)
    · exact .inr (.inl ⟨0x6e, rfl, ha ▸ rfl⟩)
    · exact .inr (.inl ⟨0x66, rfl, hc ▸ rfl⟩)
    · exact .inr (.inl ⟨0x72, rfl, hd ▸ rfl⟩)
    · exact .inr (.inr ⟨_, _, rfl, hcontrol ⟨b.toNat, hlow⟩ b (UInt8.ofNat_toNat).symm⟩)
    · exact .inl ⟨rfl, h⟩

section Scan

variable (rest : List UInt8)

theorem scanString_quote : scanString (0x22 :: rest) = some ([], rest) := by
  rw [scanString.eq_def]
  rfl

theorem scanString_plain {b : UInt8} (hquote : b ≠ 0x22) (hback : b ≠ 0x5c) :
    scanString (b :: rest) =
      (scanString rest).map fun (literal, left) ↦ (b :: literal, left) := by
  rw [scanString.eq_def]
  simp only [hquote, hback, if_false]

theorem scanString_escape (c : UInt8) :
    scanString (0x5c :: c :: rest) =
      (scanString rest).map fun (literal, left) ↦ (0x5c :: c :: literal, left) := by
  rw [scanString.eq_def]
  rfl

end Scan

/-- The quote that ends a literal is found: no escaped byte contains a bare one. -/
theorem scanString_escaped (bytes tail : List UInt8) :
    scanString (bytes.flatMap escapeByte ++ 0x22 :: tail) =
      some (bytes.flatMap escapeByte, tail) := by
  induction bytes with
  | nil => exact scanString_quote tail
  | cons b bytes ih =>
    rw [List.flatMap_cons, List.append_assoc]
    rcases escapeByte_cases b with
      ⟨hb, hquote, hback⟩ | ⟨c, hb, -⟩ | ⟨high, low, hb, hh, hh', hl, hl', -⟩
    · simp [hb, scanString_plain _ hquote hback, ih]
    · simp [hb, scanString_escape, ih]
    · simp [hb, scanString_escape, scanString_plain, hh, hh', hl, hl', ih]

/-- The escapes are undone. -/
theorem decodeString_escaped (bytes : List UInt8) :
    decodeString 0 (bytes.flatMap escapeByte) = some bytes := by
  induction bytes with
  | nil => rfl
  | cons b bytes ih =>
    rw [List.flatMap_cons]
    rcases escapeByte_cases b with
      ⟨hb, -, hback⟩ | ⟨c, hb, hc⟩ | ⟨high, low, hb, -, -, -, -, hhex, hutf8⟩
    · simp [hb, decodeString, hback, ih]
    · simp [hb, decodeString, hc, ih]
    · have hsmall : b.toNat < 0xd800 := lt_trans b.toNat_lt (by decide)
      have hliteral : utf16Literal (0x5c :: 0x75 :: 0x30 :: 0x30 :: high :: low ::
          bytes.flatMap escapeByte) = some ([b], 6) := by
        have htake : parseHex4 (0x30 :: 0x30 :: high :: low :: bytes.flatMap escapeByte) =
            b.toNat := hhex
        rw [utf16Literal, if_neg (by simp), List.drop_succ_cons, List.drop_succ_cons,
          List.drop_zero, htake, if_neg (by omega), if_neg (by omega), hutf8]
        rfl
      simp [hb, decodeString, simpleEscape, hliteral, ih]

theorem parseString_stringText (s : String) (tail : List UInt8) :
    parseString (stringText s ++ tail) = some (utf8 s, tail) := by
  have hscan := scanString_escaped (utf8 s) tail
  simp [stringText, parseString, hscan, decodeString_escaped]

/-! ### Numbers -/

/-- What the C parser relies on `strtod` for: the text of an integer that a double holds, in full,
is that integer. -/
def StrtodExact (strtod : List UInt8 → CDouble × ℕ) : Prop :=
  ∀ n : ℤ, n.natAbs ≤ 9007199254740992 →
    strtod (integerText n) = (.finite n, (integerText n).length)

/-- What may stand behind a number. -/
def EndsNumber (tail : List UInt8) : Prop :=
  ∀ b ∈ tail.head?, ¬ isNumberByte b

theorem decimal_digits {n : ℕ} {b : UInt8} (h : b ∈ decimal n) : 0x30 ≤ b ∧ b ≤ 0x39 := by
  rw [decimal] at h
  split at h
  · obtain rfl := List.mem_singleton.1 h
    decide
  · obtain ⟨d, hd, rfl⟩ := List.mem_map.1 h
    have hlt : d < 10 := Nat.digits_lt_base (by decide) (List.mem_reverse.1 hd)
    interval_cases d <;> decide

theorem length_decimal {n : ℕ} (h : n ≤ 9007199254740992) : (decimal n).length ≤ 16 := by
  rw [decimal]
  split
  · decide
  · rw [List.length_map, List.length_reverse]
    exact (Nat.digits_length_le_iff (by decide) n).2 (lt_of_le_of_lt h (by decide))

theorem decimal_ne_nil (n : ℕ) : decimal n ≠ [] := by
  rw [decimal]
  split
  · decide
  · simpa using Nat.digits_ne_nil_iff_ne_zero.2 ‹_›

/-- A number starts with a digit or a minus sign. -/
theorem integerText_head (n : ℤ) :
    ∃ b rest, integerText n = b :: rest ∧ (b = 0x2d ∨ 0x30 ≤ b ∧ b ≤ 0x39) := by
  rw [integerText]
  split
  · exact ⟨_, _, rfl, .inl rfl⟩
  · obtain ⟨b, rest, h⟩ := List.exists_cons_of_ne_nil (decimal_ne_nil n.natAbs)
    exact ⟨b, rest, h, .inr (decimal_digits (h ▸ List.mem_cons_self))⟩

theorem isNumberByte_of_mem_integerText {n : ℤ} {b : UInt8} (h : b ∈ integerText n) :
    isNumberByte b := by
  have hdigit {b : UInt8} (h : b ∈ decimal n.natAbs) : isNumberByte b := by
    simp [isNumberByte, decimal_digits h]
  rw [integerText] at h
  split at h
  · rcases List.mem_cons.1 h with rfl | h
    · decide
    · exact hdigit h
  · exact hdigit h

theorem length_integerText {n : ℤ} (h : n.natAbs ≤ 9007199254740992) :
    (integerText n).length ≤ 63 := by
  have hdecimal := length_decimal h
  rw [integerText]
  split
  · rw [List.length_cons]
    omega
  · omega

theorem parseNumber_integerText {strtod : List UInt8 → CDouble × ℕ} (hstrtod : StrtodExact strtod)
    {n : ℤ} (h : n.natAbs ≤ 9007199254740992) {tail : List UInt8} (htail : EndsNumber tail) :
    parseNumber strtod (integerText n ++ tail) = some (.number (.finite n), tail) := by
  have hlength := length_integerText h
  have hnumber : ((integerText n ++ tail).take 63).takeWhile isNumberByte = integerText n := by
    have hrest : ∀ k, (tail.take k).takeWhile isNumberByte = [] := by
      intro k
      cases tail with
      | nil => simp
      | cons b tail =>
        cases k with
        | zero => rfl
        | succ k => exact List.takeWhile_cons_of_neg (htail b rfl)
    rw [List.take_append, List.take_of_length_le hlength,
      List.takeWhile_append_of_pos fun b ↦ isNumberByte_of_mem_integerText, hrest,
      List.append_nil]
  obtain ⟨b, rest, hhead, -⟩ := integerText_head n
  rw [parseNumber, hnumber, hstrtod n h]
  simp [hhead]

/-! ### Values -/

mutual

/-- The item a value is read back as. -/
def toCJson : JsonValue → CJson
  | .null => .null
  | .bool b => .bool b
  | .number n => .number (.finite (n.toInt.getD 0))
  | .string s => .string (utf8 s)
  | .array items => .array (toCJsonItems items)
  | .object fields => .object (toCJsonFields fields)

/-- The items of an array. -/
def toCJsonItems : List JsonValue → List CJson
  | [] => []
  | value :: others => toCJson value :: toCJsonItems others

/-- A field of an object. -/
def toCJsonField : String × JsonValue → List UInt8 × CJson
  | (key, value) => (utf8 key, toCJson value)

/-- The fields of an object. -/
def toCJsonFields : List (String × JsonValue) → List (List UInt8 × CJson)
  | [] => []
  | field :: others => toCJsonField field :: toCJsonFields others

end

section Values

variable {strtod : List UInt8 → CDouble × ℕ} {n : ℕ}

theorem cons_ne_cons {b c : UInt8} (h : b ≠ c) (bs cs : List UInt8) : b :: bs ≠ c :: cs :=
  fun heq ↦ h (List.cons.inj heq).1

/-- No literal starts with any other byte than these three. -/
theorem take_ne_literal {b : UInt8} (hn : b ≠ 0x6e) (hf : b ≠ 0x66) (ht : b ≠ 0x74)
    (left : List UInt8) :
    (b :: left).take 4 ≠ utf8 "null" ∧ (b :: left).take 5 ≠ utf8 "false" ∧
      (b :: left).take 4 ≠ utf8 "true" :=
  ⟨cons_ne_cons hn _ _, cons_ne_cons hf _ _, cons_ne_cons ht _ _⟩

theorem parseValue_string (left : List UInt8) :
    parseValue strtod n (0x22 :: left) =
      (parseString (0x22 :: left)).map fun (bytes, left) ↦ (.string bytes, left) := by
  obtain ⟨hnull, hfalse, htrue⟩ :=
    take_ne_literal (b := 0x22) (by decide) (by decide) (by decide) left
  rw [parseValue.eq_def, if_neg hnull, if_neg hfalse, if_neg htrue]
  rfl

theorem parseValue_number {b : UInt8} (hb : b = 0x2d ∨ 0x30 ≤ b ∧ b ≤ 0x39) (left : List UInt8) :
    parseValue strtod n (b :: left) = parseNumber strtod (b :: left) := by
  have hne {c : UInt8} (hc : 0x39 < c ∨ c = 0x22) : b ≠ c := by
    rintro rfl
    rcases hc with hc | rfl
    · rcases hb with rfl | hb
      · exact absurd hc (by decide)
      · exact absurd hc (UInt8.not_lt.2 hb.2)
    · exact absurd hb (by decide)
  obtain ⟨hnull, hfalse, htrue⟩ :=
    take_ne_literal (hne (.inl (by decide))) (hne (.inl (by decide))) (hne (.inl (by decide))) left
  rw [parseValue.eq_def, if_neg hnull, if_neg hfalse, if_neg htrue]
  exact (if_neg (hne (.inr rfl))).trans (if_pos hb)

theorem parseValue_array (left : List UInt8) :
    parseValue strtod (n + 1) (0x5b :: left) = parseArray (parseValue strtod n) left := by
  obtain ⟨hnull, hfalse, htrue⟩ :=
    take_ne_literal (b := 0x5b) (by decide) (by decide) (by decide) left
  rw [parseValue.eq_def, if_neg hnull, if_neg hfalse, if_neg htrue]
  rfl

theorem parseValue_object (left : List UInt8) :
    parseValue strtod (n + 1) (0x7b :: left) = parseObject (parseValue strtod n) left := by
  obtain ⟨hnull, hfalse, htrue⟩ :=
    take_ne_literal (b := 0x7b) (by decide) (by decide) (by decide) left
  rw [parseValue.eq_def, if_neg hnull, if_neg hfalse, if_neg htrue]
  rfl

/-- The text of a value starts with a visible byte, and with none that closes anything. -/
theorem compact_head (value : JsonValue) :
    ∃ b left, compact value = b :: left ∧ 32 < b ∧ b < 0x80 ∧ b ≠ 0x5d ∧ b ≠ 0x7d := by
  cases value with
  | null => exact ⟨0x6e, _, by rw [compact]; rfl, by decide⟩
  | bool b =>
    cases b with
    | false => exact ⟨0x66, _, by rw [compact]; rfl, by decide⟩
    | true => exact ⟨0x74, _, by rw [compact]; rfl, by decide⟩
  | number x =>
    obtain ⟨b, left, h, hb⟩ := integerText_head (x.toInt.getD 0)
    refine ⟨b, left, by rw [compact, numberText, h], ?_⟩
    rcases hb with rfl | ⟨hlow, hhigh⟩
    · decide
    · refine ⟨UInt8.lt_of_lt_of_le (show 32 < 0x30 by decide) hlow,
        UInt8.lt_of_le_of_lt hhigh (show 0x39 < 0x80 by decide), ?_, ?_⟩
      · rintro rfl
        exact absurd hhigh (by decide)
      · rintro rfl
        exact absurd hhigh (by decide)
  | string s => exact ⟨0x22, _, by rw [compact, stringText]; rfl, by decide⟩
  | array items => exact ⟨0x5b, _, by rw [compact]; rfl, by decide⟩
  | object fields => exact ⟨0x7b, _, by rw [compact]; rfl, by decide⟩

/-- The reader `parse` reads back a value, whatever stands behind its text. -/
def ReadsBack (parse : List UInt8 → Option (CJson × List UInt8)) (value : JsonValue) : Prop :=
  ∀ tail, EndsNumber tail → parse (compact value ++ tail) = some (toCJson value, tail)

theorem skipWhitespace_compact (value : JsonValue) (tail : List UInt8) :
    skipWhitespace (compact value ++ tail) = compact value ++ tail := by
  obtain ⟨b, left, h, hb, -⟩ := compact_head value
  rw [h, List.cons_append, skipWhitespace_cons hb]

theorem endsNumber_comma (tail : List UInt8) : EndsNumber (0x2c :: tail) := by
  rintro b ⟨⟩
  decide

theorem endsNumber_bracket (tail : List UInt8) : EndsNumber (0x5d :: tail) := by
  rintro b ⟨⟩
  decide

theorem endsNumber_brace (tail : List UInt8) : EndsNumber (0x7d :: tail) := by
  rintro b ⟨⟩
  decide

variable {parse : List UInt8 → Option (CJson × List UInt8)}

/-- The loop over the items of an array. -/
theorem parseItems_compact {items : List JsonValue} (hparse : ∀ item ∈ items, ReadsBack parse item)
    (hne : items ≠ []) {fuel : ℕ} (hfuel : items.length ≤ fuel) (tail : List UInt8) :
    parseItems parse fuel (compactItems items ++ 0x5d :: tail) =
      some (toCJsonItems items, tail) := by
  induction items generalizing fuel with
  | nil => exact absurd rfl hne
  | cons item items ih =>
    obtain ⟨fuel, rfl⟩ : ∃ k, fuel = k + 1 := ⟨fuel - 1, by simp at hfuel; omega⟩
    have hitem := hparse item List.mem_cons_self
    cases items with
    | nil =>
      simp [parseItems, compactItems, toCJsonItems, skipWhitespace_compact,
        hitem _ (endsNumber_bracket tail)]
    | cons next items =>
      have ih := ih (fun item h ↦ hparse item (List.mem_cons_of_mem _ h)) (by simp)
        (Nat.le_of_succ_le_succ hfuel)
      have hcomma : (32 : UInt8) < 0x2c := by decide
      rw [parseItems, compactItems_cons_cons, List.append_assoc, List.cons_append,
        skipWhitespace_compact, hitem _ (endsNumber_comma _)]
      simp [hcomma, ih, toCJsonItems]

/-- The loop over the fields of an object. -/
theorem parseFields_compact {fields : List (String × JsonValue)}
    (hparse : ∀ field ∈ fields, ReadsBack parse field.2)
    (hne : fields ≠ []) {fuel : ℕ} (hfuel : fields.length ≤ fuel) (tail : List UInt8) :
    parseFields parse fuel (compactFields fields ++ 0x7d :: tail) =
      some (toCJsonFields fields, tail) := by
  induction fields generalizing fuel with
  | nil => exact absurd rfl hne
  | cons field fields ih =>
    obtain ⟨fuel, rfl⟩ : ∃ k, fuel = k + 1 := ⟨fuel - 1, by simp at hfuel; omega⟩
    obtain ⟨key, value⟩ := field
    have hvalue := hparse (key, value) List.mem_cons_self
    have hquote : (32 : UInt8) < 0x22 := by decide
    have hcolon : (32 : UInt8) < 0x3a := by decide
    have hkey : ∀ tail, skipWhitespace (stringText key ++ tail) = stringText key ++ tail :=
      fun tail ↦ skipWhitespace_cons hquote _
    cases fields with
    | nil =>
      have hbrace : (32 : UInt8) < 0x7d := by decide
      rw [parseFields, compactFields, compactField, List.append_assoc, List.cons_append, hkey,
        parseString_stringText]
      simp [toCJsonFields, toCJsonField, skipWhitespace_compact, hcolon, hbrace,
        hvalue _ (endsNumber_brace tail)]
    | cons next fields =>
      have ih := ih (fun field h ↦ hparse field (List.mem_cons_of_mem _ h)) (by simp)
        (Nat.le_of_succ_le_succ hfuel)
      have hcomma : (32 : UInt8) < 0x2c := by decide
      rw [parseFields, compactFields_cons_cons, compactField, List.append_assoc, List.append_assoc,
        List.cons_append, List.cons_append, hkey, parseString_stringText]
      simp [toCJsonFields, toCJsonField, skipWhitespace_compact, hcolon, hcomma,
        hvalue _ (endsNumber_comma _), ih]

/-- The text of a nonempty array starts with its first item. -/
theorem compactItems_head {items : List JsonValue} (hne : items ≠ []) :
    ∃ b left, compactItems items = b :: left ∧ 32 < b ∧ b ≠ 0x5d := by
  match items with
  | [item] =>
    obtain ⟨b, left, h, hb, -, hclose, -⟩ := compact_head item
    exact ⟨b, left, by rw [compactItems, h], hb, hclose⟩
  | item :: next :: items =>
    obtain ⟨b, left, h, hb, -, hclose, -⟩ := compact_head item
    exact ⟨b, _, by rw [compactItems_cons_cons, h, List.cons_append], hb, hclose⟩

/-- The text of a nonempty object starts with the quote of its first key. -/
theorem compactFields_head {fields : List (String × JsonValue)} (hne : fields ≠ []) :
    ∃ left, compactFields fields = 0x22 :: left := by
  match fields with
  | [(key, value)] => exact ⟨_, by rw [compactFields, compactField, stringText]; rfl⟩
  | (key, value) :: next :: fields =>
    exact ⟨_, by rw [compactFields_cons_cons, compactField, stringText]; rfl⟩

/-- Every item takes a byte at least. -/
theorem length_le_compactItems (items : List JsonValue) :
    items.length ≤ (compactItems items).length := by
  induction items with
  | nil => exact Nat.zero_le _
  | cons item items ih =>
    obtain ⟨b, left, h, -⟩ := compact_head item
    cases items with
    | nil => simp [compactItems, h]
    | cons next items =>
      rw [compactItems_cons_cons]
      simp only [List.length_cons, List.length_append] at ih ⊢
      omega

theorem length_le_compactFields (fields : List (String × JsonValue)) :
    fields.length ≤ (compactFields fields).length := by
  induction fields with
  | nil => exact Nat.zero_le _
  | cons field fields ih =>
    cases fields with
    | nil =>
      obtain ⟨left, h⟩ := compactFields_head (List.cons_ne_nil field [])
      simp [h]
    | cons next fields =>
      rw [compactFields_cons_cons]
      simp only [List.length_cons, List.length_append] at ih ⊢
      omega

theorem parseArray_compact {items : List JsonValue} (hparse : ∀ item ∈ items, ReadsBack parse item)
    (tail : List UInt8) :
    parseArray parse (compactItems items ++ 0x5d :: tail) =
      some (.array (toCJsonItems items), tail) := by
  rcases eq_or_ne items [] with rfl | hne
  · have hclose : skipWhitespace (compactItems [] ++ 0x5d :: tail) = 0x5d :: tail :=
      skipWhitespace_cons (show 32 < 0x5d by decide) tail
    rw [parseArray, hclose]
    rfl
  · obtain ⟨b, left, hhead, hb, hclose⟩ := compactItems_head hne
    have hskip : skipWhitespace (compactItems items ++ 0x5d :: tail) =
        compactItems items ++ 0x5d :: tail := by
      rw [hhead]
      exact skipWhitespace_cons hb _
    have hfuel : items.length ≤ (compactItems items ++ 0x5d :: tail).length := by
      have := length_le_compactItems items
      rw [List.length_append]
      omega
    have hitems := parseItems_compact hparse hne hfuel tail
    rw [parseArray, hskip]
    split
    case h_1 heq =>
      rw [hhead] at heq
      exact absurd (List.cons.inj heq).1 hclose
    case h_2 => rw [hitems, Option.map_some]

theorem parseObject_compact {fields : List (String × JsonValue)}
    (hparse : ∀ field ∈ fields, ReadsBack parse field.2) (tail : List UInt8) :
    parseObject parse (compactFields fields ++ 0x7d :: tail) =
      some (.object (toCJsonFields fields), tail) := by
  rcases eq_or_ne fields [] with rfl | hne
  · have hclose : skipWhitespace (compactFields [] ++ 0x7d :: tail) = 0x7d :: tail :=
      skipWhitespace_cons (show 32 < 0x7d by decide) tail
    rw [parseObject, hclose]
    rfl
  · obtain ⟨left, hhead⟩ := compactFields_head hne
    have hskip : skipWhitespace (compactFields fields ++ 0x7d :: tail) =
        compactFields fields ++ 0x7d :: tail := by
      rw [hhead]
      exact skipWhitespace_cons (show 32 < 0x22 by decide) _
    have hfuel : fields.length ≤ (compactFields fields ++ 0x7d :: tail).length := by
      have := length_le_compactFields fields
      rw [List.length_append]
      omega
    have hfields := parseFields_compact hparse hne hfuel tail
    rw [parseObject, hskip]
    split
    case h_1 heq =>
      rw [hhead] at heq
      exact absurd (List.cons.inj heq).1 (by decide)
    case h_2 => rw [hfields, Option.map_some]

/-- **The C parser reads back every value it is written compactly**, with anything behind it that
does not continue a number. -/
theorem parseValue_compact (hstrtod : StrtodExact strtod) {value : JsonValue}
    (hvalue : value.Exact n) : ReadsBack (parseValue strtod n) value := by
  induction hvalue with
  | null n =>
    intro tail _
    rw [compact, parseValue.eq_def, if_pos (by rfl)]
    rfl
  | bool n b =>
    intro tail _
    cases b with
    | false =>
      have hnull : (utf8 "false" ++ tail).take 4 ≠ utf8 "null" :=
        cons_ne_cons (show 0x66 ≠ 0x6e by decide) _ _
      rw [compact, parseValue.eq_def, if_neg hnull, if_pos (by rfl)]
      rfl
    | true =>
      have hnull : (utf8 "true" ++ tail).take 4 ≠ utf8 "null" :=
        cons_ne_cons (show 0x74 ≠ 0x6e by decide) _ _
      have hfalse : (utf8 "true" ++ tail).take 5 ≠ utf8 "false" :=
        cons_ne_cons (show 0x74 ≠ 0x66 by decide) _ _
      rw [compact, parseValue.eq_def, if_neg hnull, if_neg hfalse, if_pos (by rfl)]
      rfl
  | number n h =>
    intro tail htail
    obtain ⟨i, hi, hsmall⟩ := h
    obtain ⟨b, left, hhead, hb⟩ := integerText_head i
    have hnumber := parseNumber_integerText hstrtod hsmall htail
    rw [compact, numberText, hi, Option.getD_some, toCJson, hi, Option.getD_some]
    rw [hhead, List.cons_append] at hnumber ⊢
    exact (parseValue_number hb _).trans hnumber
  | string n s =>
    intro tail _
    have hstring := parseString_stringText s tail
    rw [compact, toCJson]
    rw [stringText, List.cons_append, List.cons_append] at hstring ⊢
    rw [parseValue_string, hstring]
    rfl
  | array h ih =>
    intro tail _
    rw [compact, List.cons_append, List.cons_append, List.append_assoc, parseValue_array, toCJson]
    exact parseArray_compact ih tail
  | object h ih =>
    intro tail _
    rw [compact, List.cons_append, List.cons_append, List.append_assoc, parseValue_object, toCJson]
    exact parseObject_compact ih tail

/-- A whole buffer: the text of a value with a line's end behind it. -/
theorem cJsonParse_compact (hstrtod : StrtodExact strtod) {value : JsonValue}
    (hvalue : value.Exact nestingLimit) :
    cJsonParse strtod (compact value ++ [0x0a]) = some (toCJson value) := by
  obtain ⟨b, left, hhead, hb, hascii, -⟩ := compact_head value
  have hbom : skipUtf8Bom (compact value ++ [0x0a] ++ [0]) = compact value ++ [0x0a, 0] := by
    rw [skipUtf8Bom, if_neg, List.append_assoc]
    · rfl
    rintro ⟨-, h⟩
    rw [hhead, List.cons_append, List.cons_append, List.take_succ_cons] at h
    obtain rfl := (List.cons.inj h).1
    exact absurd hascii (by decide)
  have hread := parseValue_compact hstrtod hvalue [0x0a, 0] (by rintro b ⟨⟩; decide)
  rw [cJsonParse, hbom, skipWhitespace_compact, hread]
  rfl

end Values

/-! ### Integers by hand -/

/-- The number a text of decimal digits stands for. -/
def digitsValue (digits : List UInt8) : ℕ :=
  digits.foldl (fun n b ↦ n * 10 + (b.toNat - 0x30)) 0

/-- `strtod` on texts without a point or an exponent, exact as long as a double is. -/
def strtodInteger (text : List UInt8) : CDouble × ℕ :=
  match text with
  | [] => (.finite 0, 0)
  | b :: rest =>
    if b = 0x2d then
      let digits := rest.takeWhile fun b ↦ 0x30 ≤ b ∧ b ≤ 0x39
      (.finite (-digitsValue digits), if digits.isEmpty then 0 else digits.length + 1)
    else
      let digits := text.takeWhile fun b ↦ 0x30 ≤ b ∧ b ≤ 0x39
      (.finite (digitsValue digits), digits.length)

theorem digitsValue_decimal (n : ℕ) : digitsValue (decimal n) = n := by
  rw [decimal]
  split
  case isTrue h => exact h ▸ rfl
  case isFalse h =>
    have hfold : ∀ ds : List ℕ, (∀ d ∈ ds, d < 10) →
        ds.foldr (fun d n ↦ n * 10 + ((UInt8.ofNat (0x30 + d)).toNat - 0x30)) 0 =
          Nat.ofDigits 10 ds := by
      intro ds hds
      induction ds with
      | nil => rfl
      | cons d ds ih =>
        have hdigit : (UInt8.ofNat (0x30 + d)).toNat - 0x30 = d := by
          have hlt := hds d List.mem_cons_self
          interval_cases d <;> rfl
        have hrest := ih fun d hd ↦ hds d (List.mem_cons_of_mem _ hd)
        rw [List.foldr_cons, hrest, hdigit, Nat.ofDigits_cons]
        omega
    rw [digitsValue, List.foldl_map, List.foldl_reverse,
      hfold _ fun d hd ↦ Nat.digits_lt_base (by decide) hd, Nat.ofDigits_digits]

/-- **Such a reader is exact.** -/
theorem strtodExact_strtodInteger : StrtodExact strtodInteger := by
  intro n _
  have hdigits : (decimal n.natAbs).takeWhile (fun b ↦ 0x30 ≤ b ∧ b ≤ 0x39) =
      decimal n.natAbs :=
    List.takeWhile_eq_self_iff.2 fun b hb ↦ by simpa using decimal_digits hb
  have hne := decimal_ne_nil n.natAbs
  rw [integerText]
  split
  case isTrue hneg =>
    have hvalue : (n : ℚ) = -(n.natAbs : ℤ) := by
      exact_mod_cast (show n = -(n.natAbs : ℤ) by omega)
    rw [strtodInteger, if_pos rfl, hdigits]
    simp only [digitsValue_decimal, List.isEmpty_iff, hne, if_false, List.length_cons]
    rw [hvalue]
    rfl
  case isFalse hpos =>
    obtain ⟨b, rest, hhead⟩ := List.exists_cons_of_ne_nil hne
    have hminus : b ≠ 0x2d := by
      rintro rfl
      exact absurd (decimal_digits (hhead ▸ List.mem_cons_self)) (by decide)
    have hvalue : (n : ℚ) = (n.natAbs : ℤ) := by
      exact_mod_cast (show n = (n.natAbs : ℤ) by omega)
    rw [hhead, strtodInteger, if_neg hminus, ← hhead, hdigits]
    simp only [digitsValue_decimal]
    rw [hvalue]
    rfl

end RdpMcp
