import Mathlib.Algebra.Order.Ring.Abs
import Mathlib.Tactic.Ring
import RdpMcp.Native.CJsonPrint
import RdpMcp.Native.CommandText

/-!
# The C printer is exact

Whatever the tree, and however the buffer grows, the printer stays inside its buffer and prints the
text of the tree (`print_exact`); it fails only where an allocation fails or the text comes near
`INT_MAX`. By induction on the tree. Between two functions the buffer is in one of two states: the
offset stands at the end of what has been printed (`Written`), or somewhere in it, with a zero byte
at its end (`Printed`), and `update_offset` leads from the second to the first. That the length of a
string is counted in one loop and the string is stored in another is where the counts have to agree
(`length_escapeByte`).
-/

open CheckedBuffer

namespace RdpMcp

/-! ### What is relied on -/

/-- What the printer relies on `sprintf` for, with its two formats of a double: a short number. -/
structure FormatsDoubles (sprintf : ℕ → ℚ → List UInt8) : Prop where
  length_le : ∀ k ≤ 17, ∀ d, (sprintf k d).length ≤ 25
  head : ∀ k ≤ 17, ∀ d, ∃ b left, sprintf k d = b :: left ∧ (b = 0x2d ∨ 0x30 ≤ b ∧ b ≤ 0x39)
  bytes : ∀ k ≤ 17, ∀ d, ∀ b ∈ sprintf k d, isNumberByte b

/-- What the printer relies on `realloc` for. -/
def Reallocates (realloc : List UInt8 → ℕ → Option (List UInt8)) : Prop :=
  ∀ old n new, realloc old n = some new → new.length = n ∧ old.take n <+: new

/-! ### Characters -/

theorem length_escapeByte (b : UInt8) : (escapeByte b).length = 1 + escapeCharacters b := by
  rw [escapeByte, escapeCharacters]
  split_ifs <;> first | rfl | simp_all

theorem length_flatMap_escapeByte (bytes : List UInt8) :
    (bytes.flatMap escapeByte).length = bytes.length + (bytes.map escapeCharacters).sum := by
  induction bytes with
  | nil => rfl
  | cons b bytes ih =>
    rw [List.flatMap_cons, List.length_append, ih, length_escapeByte, List.length_cons,
      List.map_cons, List.sum_cons]
    omega

/-- A string none of whose characters takes more is printed as it is. -/
theorem flatMap_escapeByte_eq_self {bytes : List UInt8}
    (h : (bytes.map escapeCharacters).sum = 0) : bytes.flatMap escapeByte = bytes := by
  have hplain {b : UInt8} (hb : escapeCharacters b = 0) : escapeByte b = [b] := by
    rw [escapeCharacters] at hb
    rw [escapeByte]
    split_ifs at hb with hshort hlow
    simp_all
  induction bytes with
  | nil => rfl
  | cons b bytes ih =>
    rw [List.map_cons, List.sum_cons] at h
    rw [List.flatMap_cons, hplain (by omega), ih (by omega), List.singleton_append]

/-- A character is stored as it is escaped, perhaps with a terminator behind it. -/
theorem escapeStores_eq (b : UInt8) :
    escapeStores b = escapeByte b ∨ escapeStores b = escapeByte b ++ [0] := by
  rw [escapeStores, escapeByte]
  by_cases hquote : b = 0x22
  · exact .inl (by simp [hquote])
  by_cases hback : b = 0x5c
  · exact .inl (by simp [hback])
  rw [if_neg (not_or.2 ⟨hquote, hback⟩)]
  by_cases hlow : b < 0x20
  · have hplain : ¬(31 < b ∧ b ≠ 0x22 ∧ b ≠ 0x5c) := by
      rintro ⟨h, -⟩
      rw [UInt8.lt_iff_toNat_lt] at h hlow
      exact absurd h (by simpa using Nat.lt_succ_iff.1 hlow)
    rw [if_neg hplain, if_neg hback, if_neg hquote]
    split_ifs <;> simp_all
  · have hhigh : 31 < b := by
      rw [UInt8.lt_iff_toNat_lt] at hlow ⊢
      exact not_lt.1 hlow
    have hshort {c : UInt8} (hc : c < 0x20) : b ≠ c := by
      rintro rfl
      exact hlow hc
    rw [if_pos ⟨hhigh, hquote, hback⟩, if_neg (hshort (by decide)), if_neg (hshort (by decide)),
      if_neg (hshort (by decide)), if_neg (hshort (by decide)), if_neg (hshort (by decide)),
      if_neg hlow]
    exact .inl rfl

/-! ### Texts -/

section Texts

variable {sprintf : ℕ → ℚ → List UInt8} {sscanf : List UInt8 → Option CDouble}

/-- An `int` is one. -/
theorem CDouble.natAbs_valueInt (value : CDouble) : value.valueInt.natAbs ≤ 2147483648 := by
  cases value with
  | infinite negative =>
    rw [valueInt]
    split_ifs <;> decide
  | finite d =>
    rw [valueInt]
    split_ifs with hhigh hlow
    · decide
    · decide
    · rw [Int.natAbs_tdiv, Int.natAbs_natCast]
      have habs : |d| ≤ 2147483648 :=
        abs_le.2 ⟨(not_le.1 hlow).le, (not_le.1 hhigh).le.trans (by norm_num)⟩
      have hnum : ((d.num.natAbs : ℕ) : ℚ) ≤ ((d.den * 2147483648 : ℕ) : ℚ) := by
        calc ((d.num.natAbs : ℕ) : ℚ) = |d| * d.den := by
              rw [Nat.cast_natAbs, Int.cast_abs, ← Rat.mul_den_eq_num, abs_mul, Nat.abs_cast]
          _ ≤ 2147483648 * d.den := by gcongr
          _ = _ := by push_cast; ring
      exact Nat.div_le_of_le_mul (by exact_mod_cast hnum)

theorem length_integerText_le {n : ℤ} (h : n.natAbs ≤ 9007199254740992) :
    (integerText n).length ≤ 17 := by
  have hdecimal := length_decimal h
  rw [integerText]
  split_ifs
  · rw [List.length_cons]
    omega
  · omega

theorem isNumberByte_blank_le {b : UInt8} (h : isNumberByte b) : 0x20 ≤ b := by
  simp only [isNumberByte, Bool.or_eq_true, Bool.and_eq_true, decide_eq_true_eq, beq_iff_eq] at h
  rcases h with ((((⟨h, -⟩ | rfl) | rfl) | rfl) | rfl) | rfl
  · exact UInt8.le_trans (by decide) h
  all_goals decide

variable (sprintf sscanf) in
/-- A finite number is printed as an integer or in one of the two formats. -/
theorem printedNumber_finite (d : ℚ) :
    printedNumber sprintf sscanf (.finite d) = integerText (CDouble.finite d).valueInt ∨
      ∃ k ≤ 17, printedNumber sprintf sscanf (.finite d) = sprintf k d := by
  rw [printedNumber]
  split_ifs with hint
  · exact .inl rfl
  refine .inr ?_
  dsimp only
  split
  · split_ifs
    · exact ⟨15, by decide, rfl⟩
    · exact ⟨17, le_rfl, rfl⟩
  · exact ⟨17, le_rfl, rfl⟩

variable (sscanf) in
theorem length_printedNumber (hformat : FormatsDoubles sprintf) (value : CDouble) :
    (printedNumber sprintf sscanf value).length ≤ 25 := by
  cases value with
  | infinite negative =>
    rw [printedNumber]
    decide
  | finite d =>
    rcases printedNumber_finite sprintf sscanf d with h | ⟨k, hk, h⟩ <;>
      rw [h]
    · have hsmall := (CDouble.finite d).natAbs_valueInt.trans (show _ ≤ 9007199254740992 by decide)
      exact (length_integerText_le hsmall).trans (by decide)
    · exact hformat.length_le k hk d

theorem blank_le_of_mem_printedNumber (hformat : FormatsDoubles sprintf) {value : CDouble}
    {c : UInt8} (hc : c ∈ printedNumber sprintf sscanf value) : 0x20 ≤ c := by
  cases value with
  | infinite negative =>
    rw [printedNumber] at hc
    exact blank_le_of_all (by decide) hc
  | finite d =>
    rcases printedNumber_finite sprintf sscanf d with h | ⟨k, hk, h⟩ <;>
      rw [h] at hc
    · exact isNumberByte_blank_le (isNumberByte_of_mem_integerText hc)
    · exact isNumberByte_blank_le (hformat.bytes k hk d c hc)

theorem blank_le_of_mem_printedString {bytes : List UInt8} {c : UInt8}
    (h : c ∈ printedString bytes) : 0x20 ≤ c := by
  rw [printedString, List.cons_append, List.mem_cons, List.mem_append, List.mem_flatMap] at h
  rcases h with rfl | ⟨b, -, hb⟩ | h
  · decide
  · exact blank_le_of_mem_escapeByte hb
  · obtain rfl := List.mem_singleton.1 h
    decide

theorem itemsText_cons_cons (item next : CJson) (items : List CJson) :
    itemsText sprintf sscanf (item :: next :: items) =
      item.text sprintf sscanf ++ 0x2c :: itemsText sprintf sscanf (next :: items) := by
  rw [itemsText]
  exact fun h ↦ by cases h

theorem fieldsText_cons_cons (name : List UInt8) (item : CJson) (next : List UInt8 × CJson)
    (fields : List (List UInt8 × CJson)) :
    fieldsText sprintf sscanf ((name, item) :: next :: fields) =
      printedString name ++ 0x3a :: item.text sprintf sscanf ++
        0x2c :: fieldsText sprintf sscanf (next :: fields) := by
  rw [fieldsText]
  exact fun h ↦ by cases h

mutual

/-- **What is printed has no control characters in it**, and so no terminator. -/
theorem blank_le_of_mem_text (hformat : FormatsDoubles sprintf) (item : CJson) {c : UInt8}
    (hc : c ∈ item.text sprintf sscanf) : 0x20 ≤ c := by
  match item with
  | .null =>
    rw [CJson.text] at hc
    exact blank_le_of_all (by decide) hc
  | .bool true =>
    rw [CJson.text] at hc
    exact blank_le_of_all (by decide) hc
  | .bool false =>
    rw [CJson.text] at hc
    exact blank_le_of_all (by decide) hc
  | .number value =>
    rw [CJson.text] at hc
    exact blank_le_of_mem_printedNumber hformat hc
  | .string bytes =>
    rw [CJson.text] at hc
    exact blank_le_of_mem_printedString hc
  | .array items =>
    rw [CJson.text, List.cons_append, List.mem_cons, List.mem_append, List.mem_singleton] at hc
    rcases hc with rfl | hc | rfl
    · decide
    · exact blank_le_of_mem_itemsText hformat items hc
    · decide
  | .object fields =>
    rw [CJson.text, List.cons_append, List.mem_cons, List.mem_append, List.mem_singleton] at hc
    rcases hc with rfl | hc | rfl
    · decide
    · exact blank_le_of_mem_fieldsText hformat fields hc
    · decide

theorem blank_le_of_mem_itemsText (hformat : FormatsDoubles sprintf) (items : List CJson)
    {c : UInt8} (hc : c ∈ itemsText sprintf sscanf items) : 0x20 ≤ c := by
  match items with
  | [] => cases hc
  | [item] =>
    rw [itemsText] at hc
    exact blank_le_of_mem_text hformat item hc
  | item :: next :: items =>
    rw [itemsText_cons_cons, List.mem_append, List.mem_cons] at hc
    rcases hc with hc | rfl | hc
    · exact blank_le_of_mem_text hformat item hc
    · decide
    · exact blank_le_of_mem_itemsText hformat (next :: items) hc

theorem blank_le_of_mem_fieldsText (hformat : FormatsDoubles sprintf)
    (fields : List (List UInt8 × CJson)) {c : UInt8}
    (hc : c ∈ fieldsText sprintf sscanf fields) : 0x20 ≤ c := by
  match fields with
  | [] => cases hc
  | [(name, item)] =>
    rw [fieldsText, List.mem_append, List.mem_cons] at hc
    rcases hc with hc | rfl | hc
    · exact blank_le_of_mem_printedString hc
    · decide
    · exact blank_le_of_mem_text hformat item hc
  | (name, item) :: next :: fields =>
    rw [fieldsText_cons_cons, List.mem_append, List.mem_append, List.mem_cons, List.mem_cons] at hc
    rcases hc with (hc | rfl | hc) | rfl | hc
    · exact blank_le_of_mem_printedString hc
    · decide
    · exact blank_le_of_mem_text hformat item hc
    · decide
    · exact blank_le_of_mem_fieldsText hformat (next :: fields) hc

end

theorem zero_not_mem_text (hformat : FormatsDoubles sprintf) (item : CJson) :
    0 ∉ item.text sprintf sscanf :=
  fun h ↦ absurd (blank_le_of_mem_text hformat item h) (by decide)

theorem zero_not_mem_printedString (bytes : List UInt8) : 0 ∉ printedString bytes :=
  fun h ↦ absurd (blank_le_of_mem_printedString h) (by decide)

end Texts

/-! ### The buffer -/

namespace PrintBuffer

variable {front text new : List UInt8} {room : ℕ} {p : PrintBuffer}

/-- Up to the offset `front` has been printed, behind it stands `text`, and there is room for `room`
bytes and a terminator. -/
structure Written (front text : List UInt8) (room : ℕ) (p : PrintBuffer) : Prop where
  offset_eq : p.offset = front.length
  starts : front ++ text <+: p.bytes
  room_lt : front.length + room < p.bytes.length

/-- Behind `front` a terminated `text` has been printed, and the offset stands somewhere in it. -/
structure Printed (front text : List UInt8) (p : PrintBuffer) : Prop where
  offset_eq : ∃ k ≤ text.length, p.offset = front.length + k
  starts : front ++ text ++ [0] <+: p.bytes

theorem Written.forget (h : Written front text room p) : Written front [] 0 p :=
  ⟨h.offset_eq, by simpa using prefix_of_append h.starts, by have := h.room_lt; omega⟩

theorem Written.keep (more : List UInt8) (h : Written front (text ++ more) room p) :
    Written front text room p :=
  ⟨h.offset_eq, prefix_of_append (by rw [List.append_assoc]; exact h.starts), h.room_lt⟩

/-- The offset moves behind what has been written. -/
theorem Written.advance {more : List UInt8} (h : Written front (text ++ more) room p)
    (hroom : text.length ≤ room) :
    Written (front ++ text) more (room - text.length) (p.advance text.length) where
  offset_eq := by
    rw [PrintBuffer.advance, List.length_append]
    exact congrArg (· + text.length) h.offset_eq
  starts := by
    rw [List.append_assoc]
    exact h.starts
  room_lt := by
    have hlt := h.room_lt
    rw [List.length_append]
    change _ < p.bytes.length
    omega

theorem Written.printed (more : List UInt8) (h : Written (front ++ text) (more ++ [0]) room p) :
    Printed front (text ++ more) p where
  offset_eq := ⟨text.length, by rw [List.length_append]; omega, by
    rw [h.offset_eq, List.length_append]⟩
  starts := by
    rw [← List.append_assoc, List.append_assoc]
    exact h.starts

section Steps

variable {P : Prop} {realloc : List UInt8 → ℕ → Option (List UInt8)}

/-- What it takes for `n` bytes to fit. -/
def Fits (realloc : List UInt8 → ℕ → Option (List UInt8)) (n : ℕ) : Prop :=
  (∀ old size, (realloc old size).isSome) ∧ n + 1 ≤ intMax

theorem Fits.mono {n m : ℕ} (h : Fits realloc m) (hle : n ≤ m) : Fits realloc n :=
  ⟨h.1, (Nat.succ_le_succ hle).trans h.2⟩

/-- `ensure` makes room and keeps what has been printed. -/
theorem yields_ensure (hrealloc : Reallocates realloc) (h : Written front text room p) {needed : ℕ}
    (hfits : P → Fits realloc (front.length + needed)) :
    Yields P (Written front [] needed) (p.ensure realloc needed) := by
  have hforget := h.forget
  have hgrown (size : ℕ) (hsize : front.length + needed < size) {new : List UInt8}
      (hnew : realloc p.bytes size = some new) :
      Yields P (Written front [] needed) (.ok { p with bytes := new }) := by
    obtain ⟨hlength, hold⟩ := hrealloc _ _ _ hnew
    refine ⟨h.offset_eq, ?_, by rw [hlength]; exact hsize⟩
    refine List.IsPrefix.trans ?_ hold
    exact List.prefix_take_iff.2 ⟨hforget.starts, by rw [List.append_nil]; omega⟩
  have hfailed (size : ℕ) (hnew : realloc p.bytes size = none) :
      Yields P (Written front [] needed) (.error .failed : Checked PrintBuffer) := by
    intro hP
    have hsome := (hfits hP).1 p.bytes size
    rw [hnew] at hsome
    cases hsome
  have hoffset := h.offset_eq
  have hroom := h.room_lt
  rw [ensure]
  dsimp only
  split_ifs with hfull hlarge hfit hhalf hmax
  · omega
  · intro hP
    have := (hfits hP).2
    omega
  · exact ⟨hoffset, hforget.starts, by omega⟩
  · split
    · next new hnew => exact hgrown _ (by omega) hnew
    · next hnew => exact hfailed _ hnew
  · intro hP
    have := (hfits hP).2
    omega
  · split
    · next new hnew => exact hgrown _ (by omega) hnew
    · next hnew => exact hfailed _ hnew

variable (new) in
theorem yields_write (h : Written front text room p) {i : ℕ} (hi : i = text.length)
    (hroom : text.length + new.length ≤ room + 1) :
    Yields P (Written front (text ++ new) room) (p.write i new) := by
  obtain ⟨bytes, hstore, hnew, hlength⟩ := store_of_prefix new (i := p.offset + i) h.starts
    (by rw [h.offset_eq, hi, List.length_append])
    (by have := h.room_lt; rw [List.length_append]; omega)
  rw [write, hstore]
  exact ⟨h.offset_eq, by rw [← List.append_assoc]; exact hnew, by rw [hlength]; exact h.room_lt⟩

/-- `update_offset` finds the end of what has been printed. -/
theorem yields_updateOffset (h : Printed front text p) (hzero : 0 ∉ text) :
    Yields P (Written (front ++ text) [0] 0) p.updateOffset := by
  obtain ⟨k, hk, hoffset⟩ := h.offset_eq
  obtain ⟨left, hleft⟩ := h.starts
  have hdrop : p.bytes.drop p.offset = text.drop k ++ 0 :: left := by
    rw [← hleft, hoffset, List.append_assoc, List.append_assoc, List.drop_append,
      List.drop_eq_nil_of_le (by omega), List.nil_append, Nat.add_sub_cancel_left,
      List.drop_append_of_le_length hk]
    rfl
  have hfind : (p.bytes.drop p.offset).findIdx? (· = 0) = some (text.length - k) := by
    have hnone : (text.drop k).findIdx? (· = 0) = none := by
      rw [List.findIdx?_eq_none_iff]
      intro b hb
      have hne : b ≠ 0 := fun heq ↦ hzero (heq ▸ List.mem_of_mem_drop hb)
      simpa using hne
    rw [hdrop, List.findIdx?_append, hnone, Option.none_or, List.findIdx?_cons]
    simp
  rw [updateOffset, hfind]
  refine ⟨?_, h.starts, ?_⟩
  · rw [advance, List.length_append]
    change p.offset + (text.length - k) = _
    omega
  · change _ < p.bytes.length
    rw [← hleft]
    simp only [List.length_append, List.length_singleton]
    omega

end Steps

end PrintBuffer

/-! ### The printer -/

section Printer

open PrintBuffer

variable {P : Prop} {sprintf : ℕ → ℚ → List UInt8} {sscanf : List UInt8 → Option CDouble}
  {realloc : List UInt8 → ℕ → Option (List UInt8)} {front text more : List UInt8} {room : ℕ}
  {p : PrintBuffer}

/-- The loop over the characters, with the quote still to come. -/
theorem yields_printCharacters {bytes : List UInt8} (h : Written front text room p) {i : ℕ}
    (hi : i = text.length) (hroom : text.length + (bytes.flatMap escapeByte).length ≤ room) :
    Yields P (Written front (text ++ bytes.flatMap escapeByte) room)
      (printCharacters i bytes p) := by
  induction bytes generalizing text i p with
  | nil =>
    rw [printCharacters, List.flatMap_nil, List.append_nil]
    exact h
  | cons b bytes ih =>
    rw [List.flatMap_cons, List.length_append] at hroom
    have hstore : Yields P (Written front (text ++ escapeByte b) room)
        (p.write i (escapeStores b)) := by
      rcases escapeStores_eq b with hb | hb <;> rw [hb]
      · exact yields_write _ h hi (by omega)
      · have hwrite := yields_write (P := P) (escapeByte b ++ [0]) h hi
          (by rw [List.length_append, List.length_singleton]; omega)
        refine hwrite.mono fun p hp ↦ Written.keep [0] ?_
        rw [List.append_assoc]
        exact hp
    rw [printCharacters, List.flatMap_cons, ← List.append_assoc]
    refine hstore.bind fun p hp ↦ ih hp ?_ ?_
    · rw [List.length_append, length_escapeByte]
      omega
    · rw [List.length_append]
      omega

theorem yields_printInput {input : List UInt8} (h : Written front text room p)
    (hi : text.length = 1) (hroom : text.length + (input.flatMap escapeByte).length ≤ room) :
    Yields P (Written front (text ++ input.flatMap escapeByte) room)
      (printInput input (input.map escapeCharacters).sum p) := by
  rw [printInput]
  split_ifs with hplain
  · rw [flatMap_escapeByte_eq_self hplain] at hroom ⊢
    exact yields_write _ h hi.symm (by omega)
  · exact yields_printCharacters h hi.symm hroom

/-- A string stands between its quotes, and is terminated. -/
theorem yields_printStringPtr (hrealloc : Reallocates realloc) {bytes : List UInt8}
    (h : Written front more room p)
    (hfits : P → Fits realloc (front.length + (printedString bytes).length + 1)) :
    Yields P (Printed front (printedString bytes)) (printStringPtr realloc bytes p) := by
  have hlength := length_flatMap_escapeByte (cString bytes)
  have hquoted :
      (printedString bytes).length = ((cString bytes).flatMap escapeByte).length + 2 := by
    rw [printedString, List.length_append, List.length_cons, List.length_singleton]
  rw [printStringPtr, ← hlength]
  refine (yields_ensure hrealloc h fun hP ↦ (hfits hP).mono (by omega)).bind fun p hp ↦ ?_
  refine (yields_write _ hp rfl (by simp)).bind fun p hp ↦ ?_
  refine (yields_printInput hp rfl (by simp; omega)).bind fun p hp ↦ ?_
  refine (yields_write _ hp (by simp) (by simp)).bind fun p hp ↦ ?_
  refine (yields_write _ hp (by simp) (by simp)).mono fun p hp ↦ ?_
  refine ⟨⟨0, Nat.zero_le _, hp.offset_eq⟩, ?_⟩
  have hstarts := hp.starts
  simpa [printedString] using hstarts

theorem yields_printNumber (hformat : FormatsDoubles sprintf) (hrealloc : Reallocates realloc)
    {value : CDouble} (h : Written front more room p)
    (hfits : P →
      Fits realloc (front.length + (printedNumber sprintf sscanf value).length + 1)) :
    Yields P (Printed front (printedNumber sprintf sscanf value))
      (printNumber sprintf sscanf realloc value p) := by
  have hshort := length_printedNumber sscanf hformat value
  rw [printNumber]
  dsimp only
  rw [if_neg (not_lt.2 hshort)]
  refine (yields_ensure hrealloc h (fun hP ↦ (hfits hP).mono (by omega))).bind fun p hp ↦ ?_
  refine (yields_write _ hp rfl (by simp; omega)).bind fun p hp ↦ ?_
  refine (yields_write _ hp (by simp) (by simp)).bind fun p hp ↦ ?_
  rw [List.nil_append] at hp
  have hend := (hp.advance (by omega)).printed []
  rwa [List.append_nil] at hend

/-- A word is terminated at once. -/
theorem yields_printWord (hrealloc : Reallocates realloc) {word : List UInt8}
    (h : Written front more room p) {needed : ℕ} (hneeded : needed = word.length + 1)
    (hfits : P → Fits realloc (front.length + word.length + 1)) :
    Yields P (Printed front word) (do (← p.ensure realloc needed).write 0 (word ++ [0])) := by
  refine (yields_ensure hrealloc h fun hP ↦ ?_).bind fun p hp ↦ ?_
  · rw [hneeded]
    exact hfits hP
  refine (yields_write _ hp rfl (by simp [hneeded])).mono fun p hp ↦ ?_
  refine ⟨⟨0, Nat.zero_le _, hp.offset_eq⟩, ?_⟩
  rw [List.append_assoc]
  exact hp.starts

/-- A structural byte, behind which the offset moves. -/
theorem yields_printByte (hrealloc : Reallocates realloc) (b : UInt8) (extra : List UInt8)
    (h : Written front more room p) {needed : ℕ} (hneeded : extra.length < needed)
    (hfits : P → Fits realloc (front.length + needed)) {R : PrintBuffer → Prop}
    {next : PrintBuffer → Checked PrintBuffer}
    (hnext : ∀ p : PrintBuffer, Written (front ++ [b]) extra (needed - 1) (p.advance 1) →
      Yields P R (next p)) :
    Yields P R (do
      let p ← p.ensure realloc needed
      let p ← p.write 0 (b :: extra)
      next p) := by
  refine (yields_ensure hrealloc h hfits).bind fun p hp ↦ ?_
  refine (yields_write _ hp rfl (by simp; omega)).bind fun p hp ↦ hnext _ ?_
  have hp' : Written front ([b] ++ extra) needed p := hp
  exact hp'.advance (by simp; omega)

/-- The byte that closes an array or an object, terminated. -/
theorem yields_printClose (hrealloc : Reallocates realloc) (b : UInt8) {body : List UInt8}
    (h : Written (front ++ body) more room p)
    (hfits : P → Fits realloc (front.length + body.length + 2)) :
    Yields P (Printed front (body ++ [b])) (do (← p.ensure realloc 2).write 0 [b, 0]) := by
  refine (yields_ensure hrealloc h fun hP ↦ ?_).bind fun p hp ↦ ?_
  · rw [List.length_append]
    exact hfits hP
  · exact (yields_write _ hp rfl (by simp)).mono fun p hp ↦ hp.printed [b]

mutual

/-- Every value is printed behind what there is, and is terminated. -/
theorem yields_printValue (hformat : FormatsDoubles sprintf) (hrealloc : Reallocates realloc)
    (item : CJson) {front more : List UInt8} {room : ℕ} {p : PrintBuffer}
    (h : Written front more room p)
    (hfits : P → Fits realloc (front.length + (item.text sprintf sscanf).length + 1)) :
    Yields P (Printed front (item.text sprintf sscanf))
      (printValue sprintf sscanf realloc item p) := by
  match item with
  | .null =>
    rw [CJson.text] at hfits ⊢
    rw [printValue]
    exact yields_printWord hrealloc h rfl hfits
  | .bool true =>
    rw [CJson.text] at hfits ⊢
    rw [printValue]
    exact yields_printWord hrealloc h rfl hfits
  | .bool false =>
    rw [CJson.text] at hfits ⊢
    rw [printValue]
    exact yields_printWord hrealloc h rfl hfits
  | .number value =>
    rw [CJson.text] at hfits ⊢
    rw [printValue]
    exact yields_printNumber hformat hrealloc h hfits
  | .string bytes =>
    rw [CJson.text] at hfits ⊢
    rw [printValue]
    exact yields_printStringPtr hrealloc h hfits
  | .array items =>
    rw [CJson.text] at hfits ⊢
    rw [printValue]
    have hsize : (0x5b :: itemsText sprintf sscanf items ++ [0x5d]).length =
        (itemsText sprintf sscanf items).length + 2 := by
      simp
    rw [hsize] at hfits
    refine yields_printByte hrealloc 0x5b [] h (by decide)
      (fun hP ↦ (hfits hP).mono (by omega)) fun p hp ↦ ?_
    refine (yields_printItems hformat hrealloc items hp fun hP ↦ (hfits hP).mono ?_).bind
      fun p hp ↦ ?_
    · rw [List.length_append, List.length_singleton]
      omega
    rw [List.append_assoc] at hp
    exact yields_printClose hrealloc 0x5d hp fun hP ↦ (hfits hP).mono (by simp)
  | .object fields =>
    rw [CJson.text] at hfits ⊢
    rw [printValue]
    have hsize : (0x7b :: fieldsText sprintf sscanf fields ++ [0x7d]).length =
        (fieldsText sprintf sscanf fields).length + 2 := by
      simp
    rw [hsize] at hfits
    refine yields_printByte hrealloc 0x7b [] h (by decide)
      (fun hP ↦ (hfits hP).mono (by omega)) fun p hp ↦ ?_
    refine (yields_printFields hformat hrealloc fields hp fun hP ↦ (hfits hP).mono ?_).bind
      fun p hp ↦ ?_
    · rw [List.length_append, List.length_singleton]
      omega
    rw [List.append_assoc] at hp
    exact yields_printClose hrealloc 0x7d hp fun hP ↦ (hfits hP).mono (by simp)

/-- The items of an array are printed one behind the other, and the offset stands behind them. -/
theorem yields_printItems (hformat : FormatsDoubles sprintf) (hrealloc : Reallocates realloc)
    (items : List CJson) {front more : List UInt8} {room : ℕ} {p : PrintBuffer}
    (h : Written front more room p)
    (hfits : P → Fits realloc (front.length + (itemsText sprintf sscanf items).length + 1)) :
    Yields P (Written (front ++ itemsText sprintf sscanf items) [] 0)
      (printItems sprintf sscanf realloc items p) := by
  match items with
  | [] =>
    rw [itemsText, List.append_nil, printItems]
    exact h.forget
  | [item] =>
    rw [itemsText] at hfits ⊢
    rw [printItems]
    refine (yields_printValue hformat hrealloc item h hfits).bind fun p hp ↦ ?_
    refine (yields_updateOffset hp (zero_not_mem_text hformat item)).bind fun p hp ↦ ?_
    rw [List.isEmpty_nil, if_pos rfl, printItems]
    exact hp.forget
  | item :: next :: items =>
    rw [itemsText_cons_cons, List.length_append, List.length_cons] at hfits
    rw [itemsText_cons_cons, printItems]
    refine (yields_printValue hformat hrealloc item h fun hP ↦ (hfits hP).mono (by omega)).bind
      fun p hp ↦ ?_
    refine (yields_updateOffset hp (zero_not_mem_text hformat item)).bind fun p hp ↦ ?_
    rw [List.isEmpty_cons, if_neg Bool.false_ne_true]
    refine yields_printByte hrealloc 0x2c [0] hp (by decide)
      (fun hP ↦ (hfits hP).mono (by rw [List.length_append]; omega)) fun p hp ↦ ?_
    have hrest := yields_printItems hformat hrealloc (next :: items) hp fun hP ↦
      (hfits hP).mono (by simp; omega)
    simpa using hrest

theorem yields_printFields (hformat : FormatsDoubles sprintf) (hrealloc : Reallocates realloc)
    (fields : List (List UInt8 × CJson)) {front more : List UInt8} {room : ℕ} {p : PrintBuffer}
    (h : Written front more room p)
    (hfits : P → Fits realloc (front.length + (fieldsText sprintf sscanf fields).length + 1)) :
    Yields P (Written (front ++ fieldsText sprintf sscanf fields) [] 0)
      (printFields sprintf sscanf realloc fields p) := by
  match fields with
  | [] =>
    rw [fieldsText, List.append_nil, printFields]
    exact h.forget
  | [(name, item)] =>
    rw [fieldsText, List.length_append, List.length_cons] at hfits
    rw [fieldsText, printFields]
    refine (yields_printStringPtr hrealloc h fun hP ↦ (hfits hP).mono (by omega)).bind
      fun p hp ↦ ?_
    refine (yields_updateOffset hp (zero_not_mem_printedString name)).bind fun p hp ↦ ?_
    refine yields_printByte hrealloc 0x3a [] hp (by decide)
      (fun hP ↦ (hfits hP).mono (by rw [List.length_append]; omega)) fun p hp ↦ ?_
    refine (yields_printValue hformat hrealloc item hp fun hP ↦
      (hfits hP).mono (by simp; omega)).bind fun p hp ↦ ?_
    refine (yields_updateOffset hp (zero_not_mem_text hformat item)).bind fun p hp ↦ ?_
    rw [List.isEmpty_nil, if_pos rfl]
    refine (yields_ensure hrealloc hp fun hP ↦ (hfits hP).mono (by simp)).bind
      fun p hp ↦ ?_
    refine (yields_write _ hp rfl (by simp)).bind fun p hp ↦ ?_
    have hend := hp.forget
    simp only [List.append_assoc, List.singleton_append] at hend
    rw [printFields]
    exact hend
  | (name, item) :: next :: fields =>
    rw [fieldsText_cons_cons, List.length_append, List.length_append, List.length_cons,
      List.length_cons] at hfits
    rw [fieldsText_cons_cons, printFields]
    refine (yields_printStringPtr hrealloc h fun hP ↦ (hfits hP).mono (by omega)).bind
      fun p hp ↦ ?_
    refine (yields_updateOffset hp (zero_not_mem_printedString name)).bind fun p hp ↦ ?_
    refine yields_printByte hrealloc 0x3a [] hp (by decide)
      (fun hP ↦ (hfits hP).mono (by rw [List.length_append]; omega)) fun p hp ↦ ?_
    refine (yields_printValue hformat hrealloc item hp fun hP ↦
      (hfits hP).mono (by simp; omega)).bind fun p hp ↦ ?_
    refine (yields_updateOffset hp (zero_not_mem_text hformat item)).bind fun p hp ↦ ?_
    rw [List.isEmpty_cons, if_neg Bool.false_ne_true]
    refine yields_printByte hrealloc 0x2c [0] hp (by decide)
      (fun hP ↦ (hfits hP).mono (by simp)) fun p hp ↦ ?_
    have hrest := yields_printFields hformat hrealloc (next :: fields) hp fun hP ↦
      (hfits hP).mono (by simp; omega)
    simpa using hrest

end

variable (sscanf) in
/-- What is printed is the text of the tree. -/
theorem yields_cJsonPrintUnformatted (hformat : FormatsDoubles sprintf)
    (hrealloc : Reallocates realloc) {first : Option (List UInt8)}
    (hfirst : ∀ bytes ∈ first, bytes.length = 256) (item : CJson) :
    Yields (first.isSome ∧ Fits realloc ((item.text sprintf sscanf).length + 1))
      (· = item.text sprintf sscanf) (cJsonPrintUnformatted sprintf sscanf realloc first item) := by
  cases first with
  | none => exact fun hP ↦ absurd hP.1 (by decide)
  | some bytes =>
    have hstart : Written [] [] 0 { bytes, offset := 0 } :=
      ⟨rfl, List.nil_prefix, by rw [hfirst bytes rfl]; decide⟩
    refine (yields_printValue hformat hrealloc item hstart fun hP ↦ hP.2.mono (by simp)).bind
      fun p hp ↦ ?_
    refine (yields_updateOffset hp (zero_not_mem_text hformat item)).bind fun p hp ↦ ?_
    cases hnew : realloc p.bytes (p.offset + 1) with
    | none =>
      intro hP
      have hsome := hP.2.1 p.bytes (p.offset + 1)
      rw [hnew] at hsome
      cases hsome
    | some new =>
      obtain ⟨left, hleft⟩ := (hrealloc _ _ _ hnew).2
      obtain ⟨more, hmore⟩ := hp.starts
      have hprinted : p.bytes.take (p.offset + 1) = item.text sprintf sscanf ++ [0] := by
        rw [← hmore, hp.offset_eq, List.nil_append, List.append_assoc,
          List.take_length_add_append]
        rfl
      change cString new = _
      rw [← hleft, hprinted, cString, List.append_assoc, List.takeWhile_append_of_pos]
      · simp
      · intro c hc
        have hne : c ≠ 0 := fun heq ↦ zero_not_mem_text hformat item (heq ▸ hc)
        simpa using hne

variable (sscanf) in
/-- Something is printed as long as memory lasts. -/
theorem cJsonPrintUnformatted_eq (hformat : FormatsDoubles sprintf)
    (hrealloc : Reallocates realloc) {first : Option (List UInt8)}
    (hfirst : ∀ bytes ∈ first, bytes.length = 256) (item : CJson) (hsome : first.isSome)
    (hgrow : ∀ old size, (realloc old size).isSome)
    (hsize : (item.text sprintf sscanf).length + 2 ≤ intMax) :
    cJsonPrintUnformatted sprintf sscanf realloc first item =
      .ok (item.text sprintf sscanf) := by
  obtain ⟨printed, hprinted, rfl⟩ :=
    (yields_cJsonPrintUnformatted sscanf hformat hrealloc hfirst item).exists_ok
      ⟨hsome, hgrow, hsize⟩
  exact hprinted

variable (sscanf) in
/-- **The printer prints the text of the tree**: it never leaves its buffer, what it returns is the
text, and it returns something wherever memory lasts and the text stays below `INT_MAX`. -/
theorem print_exact (hformat : FormatsDoubles sprintf) (hrealloc : Reallocates realloc)
    {first : Option (List UInt8)} (hfirst : ∀ bytes ∈ first, bytes.length = 256) (item : CJson) :
    cJsonPrintUnformatted sprintf sscanf realloc first item ≠ .error .undefined ∧
      (∀ printed, cJsonPrintUnformatted sprintf sscanf realloc first item = .ok printed →
        printed = item.text sprintf sscanf) ∧
      (first.isSome → (∀ old size, (realloc old size).isSome) →
        (item.text sprintf sscanf).length + 2 ≤ intMax →
          cJsonPrintUnformatted sprintf sscanf realloc first item =
            .ok (item.text sprintf sscanf)) := by
  have hprints := yields_cJsonPrintUnformatted sscanf hformat hrealloc hfirst item
  exact ⟨hprints.ne_undefined, fun printed ↦ hprints.of_ok,
    cJsonPrintUnformatted_eq sscanf hformat hrealloc hfirst item⟩

end Printer

/-! ### A C library by hand -/

/-- A number cut to an integer, as far as it has 15 digits. -/
def truncatedText (_ : ℕ) (d : ℚ) : List UInt8 :=
  let n := d.num.tdiv d.den
  integerText (if n.natAbs < 1000000000000000 then n else 0)

/-- Memory that never runs out, cleared. -/
def grownBytes (old : List UInt8) (n : ℕ) : Option (List UInt8) :=
  some ((old ++ List.replicate n 0).take n)

theorem reallocates_grownBytes : Reallocates grownBytes := by
  rintro old n new h
  obtain rfl := Option.some.inj h
  refine ⟨by simp, ?_⟩
  rw [List.take_append]
  exact List.prefix_append _ _

theorem formatsDoubles_truncatedText : FormatsDoubles truncatedText where
  length_le k _ d := by
    have hsmall : (if (d.num.tdiv d.den).natAbs < 1000000000000000 then d.num.tdiv d.den
        else 0).natAbs ≤ 9007199254740992 := by
      split_ifs <;> omega
    exact (length_integerText_le hsmall).trans (by decide)
  head k _ d := integerText_head _
  bytes k _ d _ := isNumberByte_of_mem_integerText

/-- The first allocation. -/
def firstBytes : Option (List UInt8) :=
  some (List.replicate 256 0)

theorem length_firstBytes : ∀ bytes ∈ firstBytes, bytes.length = 256 := by
  intro bytes hbytes
  obtain rfl := Option.mem_some_iff.1 hbytes
  exact List.length_replicate

/-- A tree whose text does not fit into the first buffer. -/
def longTree : CJson :=
  .object [(utf8 "a", .array [.number (.finite 7), .string (List.replicate 300 0x0a)])]

/-- **Its text is printed all the same**, every line feed escaped. -/
theorem print_exact_longTree :
    ∃ printed, cJsonPrintUnformatted truncatedText (fun text ↦ some (strtodInteger text).1)
        grownBytes firstBytes longTree = .ok printed ∧
      printed.take 10 = utf8 "\x7b\"a\":[7,\"\\" ∧ printed.length = 612 := by
  have hlength : (longTree.text truncatedText fun text ↦
      some (strtodInteger text).1).length = 612 := by
    decide +kernel
  have h := (print_exact (fun text ↦ some (strtodInteger text).1) formatsDoubles_truncatedText
    reallocates_grownBytes length_firstBytes longTree).2.2 rfl (fun _ _ ↦ rfl)
    (by rw [hlength]; decide)
  exact ⟨_, h, by decide +kernel, hlength⟩

end RdpMcp
