import RdpMcp.Native.PrintExact

/-!
# What is printed is read back

A tree that the C printer has printed is read by the C parser as the tree of `reread`: strings and
names end at their first zero byte, an infinite number is a null, and a number is what `strtod`
makes of its text, which is the number itself for an integer below `10 ^ 15`. The parser has a limit
of nesting and the printer has none, but what has been parsed is within the limit
(`parseValue_within`) and stays there.

The two loops are read back item by item, from whatever reads back a single item; the induction is
on the nesting.
-/

namespace RdpMcp

/-! ### Nesting -/

/-- At most `n` levels of arrays and objects. -/
inductive CJson.Within : ℕ → CJson → Prop
  | null (n : ℕ) : Within n .null
  | bool (n : ℕ) (b : Bool) : Within n (.bool b)
  | number (n : ℕ) (value : CDouble) : Within n (.number value)
  | string (n : ℕ) (bytes : List UInt8) : Within n (.string bytes)
  | array {n : ℕ} {items : List CJson} (h : ∀ item ∈ items, Within n item) :
      Within (n + 1) (.array items)
  | object {n : ℕ} {fields : List (List UInt8 × CJson)} (h : ∀ field ∈ fields, Within n field.2) :
      Within (n + 1) (.object fields)

theorem CJson.Within.succ {n : ℕ} {item : CJson} (h : item.Within n) : item.Within (n + 1) := by
  induction h with
  | null n => exact .null _
  | bool n b => exact .bool _ b
  | number n value => exact .number _ value
  | string n bytes => exact .string _ bytes
  | array h ih => exact .array ih
  | object h ih => exact .object ih

section Within

variable {strtod : List UInt8 → CDouble × ℕ} {n : ℕ}
  {parse : List UInt8 → Option (CJson × List UInt8)}
  (hparse : ∀ text item left, parse text = some (item, left) → item.Within n)
include hparse

theorem parseItems_within {fuel : ℕ} {text left : List UInt8} {items : List CJson}
    (h : parseItems parse fuel text = some (items, left)) : ∀ item ∈ items, item.Within n := by
  induction fuel generalizing text items with
  | zero => cases h
  | succ fuel ih =>
    rw [parseItems] at h
    obtain ⟨⟨first, rest⟩, hfirst, h⟩ := Option.bind_eq_some_iff.1 h
    have hhead := hparse _ _ _ hfirst
    dsimp only at h
    split at h
    · obtain ⟨⟨others, rest⟩, hothers, h⟩ := Option.bind_eq_some_iff.1 h
      cases h
      exact List.forall_mem_cons.2 ⟨hhead, ih hothers⟩
    · cases h
      simpa using hhead
    · cases h

theorem parseFields_within {fuel : ℕ} {text left : List UInt8}
    {fields : List (List UInt8 × CJson)} (h : parseFields parse fuel text = some (fields, left)) :
    ∀ field ∈ fields, field.2.Within n := by
  induction fuel generalizing text fields with
  | zero => cases h
  | succ fuel ih =>
    rw [parseFields] at h
    obtain ⟨⟨name, rest⟩, -, h⟩ := Option.bind_eq_some_iff.1 h
    dsimp only at h
    split at h
    case h_2 => cases h
    obtain ⟨⟨value, rest⟩, hvalue, h⟩ := Option.bind_eq_some_iff.1 h
    have hhead := hparse _ _ _ hvalue
    dsimp only at h
    split at h
    · obtain ⟨⟨others, rest⟩, hothers, h⟩ := Option.bind_eq_some_iff.1 h
      cases h
      exact List.forall_mem_cons.2 ⟨hhead, ih hothers⟩
    · cases h
      simpa using hhead
    · cases h

end Within

/-- **What has been parsed is within the limit.** -/
theorem parseValue_within {strtod : List UInt8 → CDouble × ℕ} {n : ℕ} {text left : List UInt8}
    {item : CJson} (h : parseValue strtod n text = some (item, left)) : item.Within n := by
  induction n using Nat.strong_induction_on generalizing text item left with
  | _ n ih =>
    rw [parseValue.eq_def] at h
    split_ifs at h with hnull hfalse htrue
    · cases h
      exact .null _
    · cases h
      exact .bool _ _
    · cases h
      exact .bool _ _
    · split at h
      · cases h
      split_ifs at h with hstring hnumber harray hobject
      · obtain ⟨⟨bytes, rest⟩, -, h⟩ := Option.map_eq_some_iff.1 h
        cases h
        exact .string _ _
      · rw [parseNumber] at h
        dsimp only at h
        split_ifs at h
        cases h
        exact .number _ _
      · split at h
        · cases h
        next n =>
          rw [parseArray] at h
          split at h
          · cases h
            exact .array fun item hitem ↦ by cases hitem
          · obtain ⟨⟨items, rest⟩, hitems, h⟩ := Option.map_eq_some_iff.1 h
            cases h
            exact .array (parseItems_within (fun _ _ _ ↦ ih n n.lt_succ_self) hitems)
      · split at h
        · cases h
        next n =>
          rw [parseObject] at h
          split at h
          · cases h
            exact .object fun field hfield ↦ by cases hfield
          · obtain ⟨⟨fields, rest⟩, hfields, h⟩ := Option.map_eq_some_iff.1 h
            cases h
            exact .object (parseFields_within (fun _ _ _ ↦ ih n n.lt_succ_self) hfields)

/-! ### What is read back -/

section Reread

variable (strtod : List UInt8 → CDouble × ℕ) (sprintf : ℕ → ℚ → List UInt8)
  (sscanf : List UInt8 → Option CDouble)

/-- The item that the text of a number is read as. -/
def rereadNumber : CDouble → CJson
  | .infinite _ => .null
  | .finite d => .number (strtod (printedNumber sprintf sscanf (.finite d))).1

mutual

/-- **The item that the text of an item is read as.** -/
def CJson.reread : CJson → CJson
  | .null => .null
  | .bool b => .bool b
  | .number value => rereadNumber strtod sprintf sscanf value
  | .string bytes => .string (cString bytes)
  | .array items => .array (rereadItems items)
  | .object fields => .object (rereadFields fields)

def rereadItems : List CJson → List CJson
  | [] => []
  | item :: items => item.reread :: rereadItems items

def rereadFields : List (List UInt8 × CJson) → List (List UInt8 × CJson)
  | [] => []
  | (name, item) :: fields => (cString name, item.reread) :: rereadFields fields

end

theorem rereadItems_eq_map (items : List CJson) :
    rereadItems strtod sprintf sscanf items = items.map (·.reread strtod sprintf sscanf) := by
  induction items with
  | nil => rfl
  | cons item items ih => rw [rereadItems, ih, List.map_cons]

theorem rereadFields_eq_map (fields : List (List UInt8 × CJson)) :
    rereadFields strtod sprintf sscanf fields =
      fields.map fun field ↦ (cString field.1, field.2.reread strtod sprintf sscanf) := by
  induction fields with
  | nil => rfl
  | cons field fields ih => rw [rereadFields, ih, List.map_cons]

end Reread

/-- What reading back relies on `strtod` for: it takes the whole of a number that was printed. -/
def TakesPrinted (strtod : List UInt8 → CDouble × ℕ) (sprintf : ℕ → ℚ → List UInt8) : Prop :=
  ∀ k ≤ 17, ∀ d, (strtod (sprintf k d)).2 = (sprintf k d).length

section ReadBack

variable {strtod : List UInt8 → CDouble × ℕ} {sprintf : ℕ → ℚ → List UInt8}
  {sscanf : List UInt8 → Option CDouble} {n : ℕ}

/-- Number bytes that a tail ends are handed to `strtod` as they are. -/
theorem parseNumber_append {text tail : List UInt8} (hbytes : ∀ b ∈ text, isNumberByte b)
    (hlength : text.length ≤ 63) (htail : EndsNumber tail) (hne : text ≠ [])
    (hall : (strtod text).2 = text.length) :
    parseNumber strtod (text ++ tail) = some (.number (strtod text).1, tail) := by
  have hnumber : ((text ++ tail).take 63).takeWhile isNumberByte = text := by
    have hrest : ∀ k, (tail.take k).takeWhile isNumberByte = [] := by
      intro k
      cases tail with
      | nil => simp
      | cons b tail =>
        cases k with
        | zero => rfl
        | succ k => exact List.takeWhile_cons_of_neg (htail b rfl)
    rw [List.take_append, List.take_of_length_le hlength,
      List.takeWhile_append_of_pos hbytes, hrest, List.append_nil]
  rw [parseNumber, hnumber]
  simp [hall, hne]

theorem parseString_printedString (bytes tail : List UInt8) :
    parseString (printedString bytes ++ tail) = some (cString bytes, tail) := by
  have hscan := scanString_escaped (cString bytes) tail
  simp [printedString, parseString, hscan, decodeString_escaped]

variable (sscanf) in
/-- The text of a number reads back as the number. -/
theorem parseNumber_printedNumber (hformat : FormatsDoubles sprintf)
    (htakes : TakesPrinted strtod sprintf) (hstrtod : StrtodExact strtod) {d : ℚ}
    {tail : List UInt8} (htail : EndsNumber tail) :
    parseNumber strtod (printedNumber sprintf sscanf (.finite d) ++ tail) =
      some (rereadNumber strtod sprintf sscanf (.finite d), tail) := by
  have hlength := length_printedNumber sscanf hformat (.finite d)
  have hlong : (printedNumber sprintf sscanf (.finite d)).length ≤ 63 := hlength.trans (by decide)
  rw [rereadNumber]
  rcases printedNumber_finite sprintf sscanf d with h | ⟨k, hk, h⟩
  · have hsmall := (CDouble.finite d).natAbs_valueInt.trans (show _ ≤ 9007199254740992 by decide)
    obtain ⟨b, left, hhead, -⟩ := integerText_head (CDouble.finite d).valueInt
    refine parseNumber_append ?_ hlong htail ?_ ?_ <;> rw [h]
    · exact fun b ↦ isNumberByte_of_mem_integerText
    · simp [hhead]
    · rw [hstrtod _ hsmall]
  · obtain ⟨b, left, hhead, -⟩ := hformat.head k hk d
    refine parseNumber_append ?_ hlong htail ?_ ?_ <;> rw [h]
    · exact hformat.bytes k hk d
    · simp [hhead]
    · exact htakes k hk d

variable (sscanf) in
/-- The text of a finite number starts as a number does. -/
theorem printedNumber_head (hformat : FormatsDoubles sprintf) (d : ℚ) :
    ∃ b left, printedNumber sprintf sscanf (.finite d) = b :: left ∧
      (b = 0x2d ∨ 0x30 ≤ b ∧ b ≤ 0x39) := by
  rcases printedNumber_finite sprintf sscanf d with h | ⟨k, hk, h⟩ <;>
    rw [h]
  · exact integerText_head _
  · exact hformat.head k hk d

variable (sscanf) in
/-- The text of an item starts with a visible byte, and with none that closes anything. -/
theorem text_head (hformat : FormatsDoubles sprintf) (item : CJson) :
    ∃ b left, item.text sprintf sscanf = b :: left ∧ 32 < b ∧ b < 0x80 ∧ b ≠ 0x5d ∧ b ≠ 0x7d := by
  cases item with
  | null => exact ⟨0x6e, _, by rw [CJson.text]; rfl, by decide⟩
  | bool b =>
    cases b with
    | false => exact ⟨0x66, _, by rw [CJson.text]; rfl, by decide⟩
    | true => exact ⟨0x74, _, by rw [CJson.text]; rfl, by decide⟩
  | number value =>
    cases value with
    | infinite negative => exact ⟨0x6e, _, by rw [CJson.text, printedNumber]; rfl, by decide⟩
    | finite d =>
      obtain ⟨b, left, h, hb⟩ := printedNumber_head sscanf hformat d
      have hplain : 32 < b ∧ b < 0x80 ∧ b ≠ 0x5d ∧ b ≠ 0x7d := by
        rcases hb with rfl | ⟨hlow, hhigh⟩
        · decide
        · rw [UInt8.le_iff_toNat_le] at hlow hhigh
          simp only [UInt8.lt_iff_toNat_lt, ne_eq, ← UInt8.toNat_inj]
          change 48 ≤ b.toNat at hlow
          change b.toNat ≤ 57 at hhigh
          exact ⟨show 32 < b.toNat by omega, show b.toNat < 128 by omega,
            show ¬b.toNat = 93 by omega, show ¬b.toNat = 125 by omega⟩
      exact ⟨b, left, by rw [CJson.text, h], hplain⟩
  | string bytes => exact ⟨0x22, _, by rw [CJson.text, printedString]; rfl, by decide⟩
  | array items => exact ⟨0x5b, _, by rw [CJson.text]; rfl, by decide⟩
  | object fields => exact ⟨0x7b, _, by rw [CJson.text]; rfl, by decide⟩

theorem skipWhitespace_text (hformat : FormatsDoubles sprintf) (item : CJson)
    (tail : List UInt8) :
    skipWhitespace (item.text sprintf sscanf ++ tail) = item.text sprintf sscanf ++ tail := by
  obtain ⟨b, left, h, hb, -⟩ := text_head sscanf hformat item
  rw [h, List.cons_append, skipWhitespace_cons hb]

/-! ### The loops -/

/-- The reader `parse` reads the text of an item back, whatever stands behind it. -/
def Rereads (strtod : List UInt8 → CDouble × ℕ) (sprintf : ℕ → ℚ → List UInt8)
    (sscanf : List UInt8 → Option CDouble) (parse : List UInt8 → Option (CJson × List UInt8))
    (item : CJson) : Prop :=
  ∀ tail, EndsNumber tail →
    parse (item.text sprintf sscanf ++ tail) = some (item.reread strtod sprintf sscanf, tail)

variable {parse : List UInt8 → Option (CJson × List UInt8)}

theorem parseItems_itemsText (hformat : FormatsDoubles sprintf) {items : List CJson}
    (hparse : ∀ item ∈ items, Rereads strtod sprintf sscanf parse item)
    (hne : items ≠ []) {fuel : ℕ} (hfuel : items.length ≤ fuel) (tail : List UInt8) :
    parseItems parse fuel (itemsText sprintf sscanf items ++ 0x5d :: tail) =
      some (rereadItems strtod sprintf sscanf items, tail) := by
  induction items generalizing fuel with
  | nil => exact absurd rfl hne
  | cons item items ih =>
    obtain ⟨fuel, rfl⟩ : ∃ k, fuel = k + 1 := ⟨fuel - 1, by simp at hfuel; omega⟩
    have hitem := hparse item List.mem_cons_self
    cases items with
    | nil =>
      simp [parseItems, itemsText, rereadItems, skipWhitespace_text hformat,
        hitem _ (endsNumber_bracket tail)]
    | cons next items =>
      have ih := ih (fun item h ↦ hparse item (List.mem_cons_of_mem _ h)) (by simp)
        (Nat.le_of_succ_le_succ hfuel)
      have hcomma : (32 : UInt8) < 0x2c := by decide
      rw [parseItems, itemsText_cons_cons, List.append_assoc, List.cons_append,
        skipWhitespace_text hformat, hitem _ (endsNumber_comma _)]
      simp [hcomma, ih, rereadItems]

theorem parseFields_fieldsText (hformat : FormatsDoubles sprintf)
    {fields : List (List UInt8 × CJson)}
    (hparse : ∀ field ∈ fields, Rereads strtod sprintf sscanf parse field.2)
    (hne : fields ≠ []) {fuel : ℕ} (hfuel : fields.length ≤ fuel) (tail : List UInt8) :
    parseFields parse fuel (fieldsText sprintf sscanf fields ++ 0x7d :: tail) =
      some (rereadFields strtod sprintf sscanf fields, tail) := by
  induction fields generalizing fuel with
  | nil => exact absurd rfl hne
  | cons field fields ih =>
    obtain ⟨fuel, rfl⟩ : ∃ k, fuel = k + 1 := ⟨fuel - 1, by simp at hfuel; omega⟩
    obtain ⟨name, value⟩ := field
    have hvalue := hparse (name, value) List.mem_cons_self
    have hcolon : (32 : UInt8) < 0x3a := by decide
    have hname (tail : List UInt8) :
        skipWhitespace (printedString name ++ tail) = printedString name ++ tail :=
      skipWhitespace_cons (show 32 < 0x22 by decide) _
    cases fields with
    | nil =>
      have hbrace : (32 : UInt8) < 0x7d := by decide
      rw [parseFields, fieldsText, List.append_assoc, List.cons_append, hname,
        parseString_printedString]
      simp [rereadFields, skipWhitespace_text hformat, hcolon, hbrace,
        hvalue _ (endsNumber_brace tail)]
    | cons next fields =>
      have ih := ih (fun field h ↦ hparse field (List.mem_cons_of_mem _ h)) (by simp)
        (Nat.le_of_succ_le_succ hfuel)
      have hcomma : (32 : UInt8) < 0x2c := by decide
      rw [parseFields, fieldsText_cons_cons, List.append_assoc, List.append_assoc,
        List.cons_append, List.cons_append, hname, parseString_printedString]
      simp [rereadFields, skipWhitespace_text hformat, hcolon, hcomma,
        hvalue _ (endsNumber_comma _), ih]

variable (sscanf) in
/-- Every item takes a byte at least. -/
theorem length_le_itemsText (hformat : FormatsDoubles sprintf) (items : List CJson) :
    items.length ≤ (itemsText sprintf sscanf items).length := by
  induction items with
  | nil => exact Nat.zero_le _
  | cons item items ih =>
    obtain ⟨b, left, h, -⟩ := text_head sscanf hformat item
    cases items with
    | nil => simp [itemsText, h]
    | cons next items =>
      rw [itemsText_cons_cons]
      simp only [List.length_cons, List.length_append] at ih ⊢
      omega

variable (sprintf sscanf) in
theorem length_le_fieldsText (fields : List (List UInt8 × CJson)) :
    fields.length ≤ (fieldsText sprintf sscanf fields).length := by
  induction fields with
  | nil => exact Nat.zero_le _
  | cons field fields ih =>
    obtain ⟨name, value⟩ := field
    cases fields with
    | nil => simp [fieldsText, printedString]
    | cons next fields =>
      rw [fieldsText_cons_cons]
      simp only [List.length_cons, List.length_append] at ih ⊢
      omega

variable (sscanf) in
theorem itemsText_head (hformat : FormatsDoubles sprintf) {items : List CJson} (hne : items ≠ []) :
    ∃ b left, itemsText sprintf sscanf items = b :: left ∧ 32 < b ∧ b ≠ 0x5d := by
  obtain ⟨item, items, rfl⟩ := List.exists_cons_of_ne_nil hne
  obtain ⟨b, left, h, hb, -, hclose, -⟩ := text_head sscanf hformat item
  cases items with
  | nil => exact ⟨b, left, by rw [itemsText, h], hb, hclose⟩
  | cons next items => exact ⟨b, _, by rw [itemsText_cons_cons, h, List.cons_append], hb, hclose⟩

variable (sprintf sscanf) in
theorem fieldsText_head {fields : List (List UInt8 × CJson)} (hne : fields ≠ []) :
    ∃ left, fieldsText sprintf sscanf fields = 0x22 :: left := by
  obtain ⟨⟨name, item⟩, fields, rfl⟩ := List.exists_cons_of_ne_nil hne
  cases fields with
  | nil => exact ⟨_, by rw [fieldsText, printedString]; rfl⟩
  | cons next fields => exact ⟨_, by rw [fieldsText_cons_cons, printedString]; rfl⟩

theorem parseArray_itemsText (hformat : FormatsDoubles sprintf) {items : List CJson}
    (hparse : ∀ item ∈ items, Rereads strtod sprintf sscanf parse item) (tail : List UInt8) :
    parseArray parse (itemsText sprintf sscanf items ++ 0x5d :: tail) =
      some (.array (rereadItems strtod sprintf sscanf items), tail) := by
  rcases eq_or_ne items [] with rfl | hne
  · have hclose : skipWhitespace (itemsText sprintf sscanf [] ++ 0x5d :: tail) = 0x5d :: tail :=
      skipWhitespace_cons (show 32 < 0x5d by decide) tail
    rw [parseArray, hclose]
    rfl
  · obtain ⟨b, left, hhead, hb, hclose⟩ := itemsText_head sscanf hformat hne
    have hskip : skipWhitespace (itemsText sprintf sscanf items ++ 0x5d :: tail) =
        itemsText sprintf sscanf items ++ 0x5d :: tail := by
      rw [hhead]
      exact skipWhitespace_cons hb _
    have hfuel : items.length ≤ (itemsText sprintf sscanf items ++ 0x5d :: tail).length := by
      have := length_le_itemsText sscanf hformat items
      rw [List.length_append]
      omega
    have hitems := parseItems_itemsText hformat hparse hne hfuel tail
    rw [parseArray, hskip]
    split
    case h_1 heq =>
      rw [hhead] at heq
      exact absurd (List.cons.inj heq).1 hclose
    case h_2 => rw [hitems, Option.map_some]

theorem parseObject_fieldsText (hformat : FormatsDoubles sprintf)
    {fields : List (List UInt8 × CJson)}
    (hparse : ∀ field ∈ fields, Rereads strtod sprintf sscanf parse field.2) (tail : List UInt8) :
    parseObject parse (fieldsText sprintf sscanf fields ++ 0x7d :: tail) =
      some (.object (rereadFields strtod sprintf sscanf fields), tail) := by
  rcases eq_or_ne fields [] with rfl | hne
  · have hclose : skipWhitespace (fieldsText sprintf sscanf [] ++ 0x7d :: tail) = 0x7d :: tail :=
      skipWhitespace_cons (show 32 < 0x7d by decide) tail
    rw [parseObject, hclose]
    rfl
  · obtain ⟨left, hhead⟩ := fieldsText_head sprintf sscanf hne
    have hskip : skipWhitespace (fieldsText sprintf sscanf fields ++ 0x7d :: tail) =
        fieldsText sprintf sscanf fields ++ 0x7d :: tail := by
      rw [hhead]
      exact skipWhitespace_cons (show 32 < 0x22 by decide) _
    have hfuel : fields.length ≤ (fieldsText sprintf sscanf fields ++ 0x7d :: tail).length := by
      have := length_le_fieldsText sprintf sscanf fields
      rw [List.length_append]
      omega
    have hfields := parseFields_fieldsText hformat hparse hne hfuel tail
    rw [parseObject, hskip]
    split
    case h_1 heq =>
      rw [hhead] at heq
      exact absurd (List.cons.inj heq).1 (by decide)
    case h_2 => rw [hfields, Option.map_some]

/-! ### Items -/

variable (sscanf) in
/-- **What is printed is read back**, with anything behind it that does not continue a number. -/
theorem parseValue_text (hformat : FormatsDoubles sprintf) (htakes : TakesPrinted strtod sprintf)
    (hstrtod : StrtodExact strtod) {item : CJson} (h : item.Within n) :
    Rereads strtod sprintf sscanf (parseValue strtod n) item := by
  induction h with
  | null n =>
    intro tail _
    rw [CJson.text, parseValue.eq_def, if_pos (by rfl)]
    rfl
  | bool n b =>
    intro tail _
    cases b with
    | false =>
      have hnull : (utf8 "false" ++ tail).take 4 ≠ utf8 "null" :=
        cons_ne_cons (show 0x66 ≠ 0x6e by decide) _ _
      rw [CJson.text, parseValue.eq_def, if_neg hnull, if_pos (by rfl)]
      rfl
    | true =>
      have hnull : (utf8 "true" ++ tail).take 4 ≠ utf8 "null" :=
        cons_ne_cons (show 0x74 ≠ 0x6e by decide) _ _
      have hfalse : (utf8 "true" ++ tail).take 5 ≠ utf8 "false" :=
        cons_ne_cons (show 0x74 ≠ 0x66 by decide) _ _
      rw [CJson.text, parseValue.eq_def, if_neg hnull, if_neg hfalse, if_pos (by rfl)]
      rfl
  | number n value =>
    intro tail htail
    cases value with
    | infinite negative =>
      rw [CJson.text, printedNumber, parseValue.eq_def, if_pos (by rfl)]
      rfl
    | finite d =>
      obtain ⟨b, left, hhead, hb⟩ := printedNumber_head sscanf hformat d
      have hnumber := parseNumber_printedNumber sscanf (d := d) hformat htakes hstrtod
        htail
      rw [CJson.text, CJson.reread]
      rw [hhead, List.cons_append] at hnumber ⊢
      exact (parseValue_number hb _).trans hnumber
  | string n bytes =>
    intro tail _
    have hstring := parseString_printedString bytes tail
    rw [CJson.text, CJson.reread]
    rw [printedString, List.cons_append, List.cons_append] at hstring ⊢
    rw [parseValue_string, hstring]
    rfl
  | array h ih =>
    intro tail _
    rw [CJson.text, List.cons_append, List.cons_append, List.append_assoc, parseValue_array,
      CJson.reread]
    exact parseArray_itemsText hformat ih tail
  | object h ih =>
    intro tail _
    rw [CJson.text, List.cons_append, List.cons_append, List.append_assoc, parseValue_object,
      CJson.reread]
    exact parseObject_fieldsText hformat ih tail

variable (sscanf) in
/-- A whole C string. -/
theorem cJsonParse_text (hformat : FormatsDoubles sprintf) (htakes : TakesPrinted strtod sprintf)
    (hstrtod : StrtodExact strtod) {item : CJson} (h : item.Within nestingLimit) :
    cJsonParse strtod (item.text sprintf sscanf) = some (item.reread strtod sprintf sscanf) := by
  obtain ⟨b, left, hhead, hb, hascii, -⟩ := text_head sscanf hformat item
  have hbom : skipUtf8Bom (item.text sprintf sscanf ++ [0]) = item.text sprintf sscanf ++ [0] := by
    rw [skipUtf8Bom, if_neg]
    rintro ⟨-, h⟩
    rw [hhead, List.cons_append, List.take_succ_cons] at h
    obtain rfl := (List.cons.inj h).1
    exact absurd hascii (by decide)
  have hread := parseValue_text sscanf hformat htakes hstrtod h [0]
    (by rintro b ⟨⟩; decide)
  rw [cJsonParse, hbom, skipWhitespace_text hformat, hread]
  rfl

end ReadBack

end RdpMcp
