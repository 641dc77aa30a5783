import RdpMcp.Native.CJsonRead
import RdpMcp.Native.CJsonText

/-!
# The C parser stays in its buffer

Whatever text the parser is given, it does not read beyond its terminator, nor write beyond what it
has allocated for a string, and its loops come to an end; and it reads what the parser on what is
left of the buffer reads, if that reads something (`parse_exact`).

What is left of the buffer is `content.drop offset`, and each function is compared with the one on
lists there (`Finds`). The one argument beyond that is about strings. The output of the second loop
has room for the bytes of the literal less one for each escape that the first loop has seen
(`room`). That is enough although the second loop may see other escapes: every byte that is no
backslash has its place, and a byte that is written for backslashes alone is written for one that is
the second of its escape, which has a place too.
-/

open CheckedBuffer

namespace RdpMcp

namespace CJsonRead

variable {strtod : List UInt8 → CDouble × ℕ} {malloc : ℕ → ℕ → Option (List UInt8)}
  {content : List UInt8} {offset : ℕ}

/-- What is left of the buffer. -/
theorem drop_eq_cons (h : offset < content.length) :
    content.drop offset = content[offset] :: content.drop (offset + 1) :=
  List.drop_eq_getElem_cons h

/-! ### White space and words -/

theorem skipBlanks_eq (left : ℕ) (h : offset + left = content.length) :
    ∃ o, skipBlanks content left offset = .ok o ∧ offset ≤ o ∧ o ≤ content.length ∧
      (content.drop offset).dropWhile (· ≤ 32) = content.drop o := by
  induction left generalizing offset with
  | zero =>
    refine ⟨offset, rfl, Nat.le_refl _, by omega, ?_⟩
    rw [List.drop_eq_nil_of_le (by omega)]
    rfl
  | succ left ih =>
    have hlt : offset < content.length := by omega
    rw [skipBlanks, load_eq_ok hlt, drop_eq_cons hlt, List.dropWhile_cons]
    by_cases hblank : content[offset] ≤ 32
    · have hnext : offset + 1 + left = content.length := by omega
      obtain ⟨o, ho, hle, hlength, hdrop⟩ := ih hnext
      refine ⟨o, ?_, by omega, hlength, ?_⟩
      · exact (if_pos hblank).trans ho
      · rw [if_pos (decide_eq_true hblank)]
        exact hdrop
    · refine ⟨offset, if_neg hblank, Nat.le_refl _, by omega, ?_⟩
      rw [if_neg (by simpa using hblank), ← drop_eq_cons hlt]

/-- **Skipping white space** ends in the buffer if it begins there. -/
theorem bufferSkipWhitespace_eq (h : offset ≤ content.length) :
    ∃ o, bufferSkipWhitespace content offset = .ok o ∧ offset ≤ o ∧ o ≤ content.length ∧
      (offset < content.length → o < content.length) ∧
      skipWhitespace (content.drop offset) = content.drop o := by
  rw [bufferSkipWhitespace]
  by_cases hend : content.length ≤ offset
  · refine ⟨offset, if_pos hend, Nat.le_refl _, h, id, ?_⟩
    rw [List.drop_eq_nil_of_le hend]
    rfl
  · rw [if_neg hend]
    have hall : offset + (content.length - offset) = content.length := by omega
    obtain ⟨o, ho, hle, hlength, hdrop⟩ := skipBlanks_eq (content.length - offset) hall
    rw [ho, skipWhitespace, hdrop]
    by_cases hlast : o = content.length
    · refine ⟨o - 1, congrArg Except.ok (if_pos hlast), by omega, by omega, fun _ ↦ by omega, ?_⟩
      rw [hlast, List.drop_length]
      dsimp only
      rw [List.length_drop, List.drop_drop]
      congr 1
      omega
    · have hlt : o < content.length := by omega
      refine ⟨o, congrArg Except.ok (if_neg hlast), hle, hlength, fun _ ↦ hlt, ?_⟩
      rw [drop_eq_cons hlt]

theorem startsWith_eq {word : List UInt8} (h : offset + word.length ≤ content.length) :
    startsWith content offset word =
      .ok (decide ((content.drop offset).take word.length = word)) := by
  induction word generalizing offset with
  | nil => rfl
  | cons b word ih =>
    rw [List.length_cons] at h
    have hlt : offset < content.length := by omega
    rw [startsWith, load_eq_ok hlt, drop_eq_cons hlt, List.length_cons, List.take_succ_cons]
    by_cases hb : content[offset] = b
    · refine (if_pos hb).trans ((ih (by omega)).trans ?_)
      simp [hb]
    · refine (if_neg hb).trans ?_
      simp [hb]
      rfl

/-- A word that does not fit in what is left is not there. -/
theorem canReadWord_eq (h : offset ≤ content.length) (word : List UInt8) :
    canReadWord content offset word =
      .ok (decide ((content.drop offset).take word.length = word)) := by
  rw [canReadWord]
  split
  · next hfits => exact startsWith_eq hfits
  · next hfits =>
    refine congrArg Except.ok (decide_eq_false fun heq ↦ hfits ?_).symm
    have hlength := congrArg List.length heq
    rw [List.length_take, List.length_drop] at hlength
    omega

theorem skipUtf8Bom_eq : ∃ o, skipUtf8Bom content = .ok o ∧ o ≤ content.length ∧
    (0 < content.length → o < content.length) ∧ RdpMcp.skipUtf8Bom content = content.drop o := by
  rw [skipUtf8Bom, RdpMcp.skipUtf8Bom]
  by_cases hshort : content.length ≤ 4
  · refine ⟨0, if_pos hshort, Nat.zero_le _, id, ?_⟩
    rw [if_neg (by omega)]
    rfl
  · rw [if_neg hshort, startsWith_eq (show 0 + 3 ≤ content.length by omega)]
    by_cases hbom : content.take 3 = [0xef, 0xbb, 0xbf]
    · refine ⟨3, ?_, by omega, fun _ ↦ by omega, if_pos ⟨by omega, hbom⟩⟩
      exact congrArg Except.ok (if_pos (decide_eq_true hbom))
    · refine ⟨0, ?_, Nat.zero_le _, id, if_neg fun h ↦ hbom h.2⟩
      exact congrArg Except.ok (if_neg (by simpa using hbom))

/-! ### Numbers -/

theorem numberBytes_eq (room offset : ℕ) :
    numberBytes content room offset =
      .ok (((content.drop offset).take room).takeWhile isNumberByte) := by
  induction room generalizing offset with
  | zero => rfl
  | succ room ih =>
    rw [numberBytes]
    by_cases hend : content.length ≤ offset
    · rw [if_pos hend, List.drop_eq_nil_of_le hend]
      rfl
    · have hlt : offset < content.length := by omega
      rw [if_neg hend, load_eq_ok hlt, ih, drop_eq_cons hlt, List.take_succ_cons,
        List.takeWhile_cons]
      cases hb : isNumberByte content[offset] with
      | false => exact if_neg (by rw [hb]; decide)
      | true => exact if_pos hb

/-- A number byte is no terminator. -/
theorem isNumberByte_ne_zero {b : UInt8} (h : isNumberByte b = true) : b ≠ 0 := by
  rintro rfl
  exact absurd h (by decide)

theorem cString_terminated {bytes : List UInt8} (h : ∀ b ∈ bytes, b ≠ 0) (rest : List UInt8) :
    cString (bytes ++ 0 :: rest) = bytes := by
  induction bytes with
  | nil => rfl
  | cons b bytes ih =>
    have hb : (b ≠ 0) := h b List.mem_cons_self
    rw [cString, List.cons_append, List.takeWhile_cons, if_pos (decide_eq_true hb)]
    exact congrArg (b :: ·) (ih fun c hc ↦ h c (List.mem_cons_of_mem _ hc))

/-- `strtod` uses what it has been given. -/
def Lawful (strtod : List UInt8 → CDouble × ℕ) : Prop :=
  ∀ text, (strtod text).2 ≤ text.length

/-- What is left behind a parsed item, and where this is in the buffer. -/
def behind {α : Type} (content : List UInt8) (result : α × ℕ) : α × List UInt8 :=
  (result.1, content.drop result.2)

/-- The offset has been moved, and not out of the buffer. -/
def Moved {α : Type} (content : List UInt8) (offset : ℕ) (result : α × ℕ) : Prop :=
  offset < result.2 ∧ result.2 ≤ content.length

/-- **A number** is looked for in 63 bytes. -/
theorem finds_parseNumber {P : Prop} (hstrtod : Lawful strtod) (offset : ℕ) :
    Finds P (Moved content offset) (behind content) (parseNumber strtod content offset)
      (RdpMcp.parseNumber strtod (content.drop offset)) := by
  rw [parseNumber, numberBytes_eq, RdpMcp.parseNumber]
  generalize hbytes : ((content.drop offset).take 63).takeWhile isNumberByte = bytes
  have hprefix : bytes <+: (content.drop offset).take 63 := hbytes ▸ List.takeWhile_prefix _
  have hlength := hprefix.length_le
  rw [List.length_take, List.length_drop] at hlength
  have hnumber : ∀ b ∈ bytes, b ≠ 0 := fun b hb ↦
    isNumberByte_ne_zero (List.mem_takeWhile_imp (hbytes ▸ hb))
  have hstore : store (List.replicate 64 0) 0 (bytes ++ [0]) =
      .ok (bytes ++ 0 :: List.replicate (64 - (bytes.length + 1)) 0) := by
    have hroom : 0 + (bytes ++ [0]).length ≤ (List.replicate 64 (0 : UInt8)).length := by
      rw [List.length_append, List.length_replicate, List.length_singleton]
      omega
    rw [store, if_pos hroom, List.drop_replicate, List.length_append, List.length_singleton,
      Nat.zero_add, List.take_zero, List.nil_append, List.append_assoc, List.singleton_append]
  have hused := hstrtod bytes
  dsimp only [bind, Except.bind]
  rw [hstore]
  dsimp only
  rw [cString_terminated hnumber]
  split_ifs with hzero
  · exact finds_failed
  · refine finds_ok ⟨?_, ?_⟩ fun c hc ↦ ?_
    · show offset < offset + (strtod bytes).2
      omega
    · show offset + (strtod bytes).2 ≤ content.length
      omega
    · obtain rfl := Option.mem_some_iff.1 hc
      rw [behind, List.drop_drop]

/-! ### Hexadecimal escapes -/

/-- The part of the buffer between two offsets. -/
def slice (content : List UInt8) (a b : ℕ) : List UInt8 :=
  (content.take b).drop a

section Slice

variable {a b n : ℕ}

theorem length_slice (h : b ≤ content.length) : (slice content a b).length = b - a := by
  rw [slice, List.length_drop, List.length_take, Nat.min_eq_left h]

theorem slice_eq_cons (hab : a < b) (h : b ≤ content.length) :
    slice content a b = content[a] :: slice content (a + 1) b := by
  have hlt : a < (content.take b).length := by
    rw [List.length_take]
    omega
  rw [slice, slice, List.drop_eq_getElem_cons hlt, List.getElem_take]

theorem slice_eq_nil (h : b ≤ a) : slice content a b = [] :=
  List.drop_eq_nil_of_le ((List.length_take_le _ _).trans h)

theorem drop_slice (a b n : ℕ) : (slice content a b).drop n = slice content (a + n) b := by
  rw [slice, slice, List.drop_drop]

theorem take_slice (h : a + n ≤ b) :
    (slice content a b).take n = (content.drop a).take n := by
  rw [slice, List.drop_take, List.take_take, Nat.min_eq_left (by omega)]

end Slice

theorem hexDigits_eq (n h : ℕ) (hfits : offset + n ≤ content.length) :
    hexDigits content n offset h =
      .ok (((((content.drop offset).take n).mapM hexValue).map
        (List.foldl (fun h digit ↦ h * 16 + digit) h)).getD 0) := by
  induction n generalizing offset h with
  | zero => rfl
  | succ n ih =>
    have hlt : offset < content.length := by omega
    rw [hexDigits, load_eq_ok hlt, drop_eq_cons hlt, List.take_succ_cons, List.mapM_cons]
    cases hb : hexValue content[offset] with
    | none =>
      dsimp only [bind, Except.bind]
      rw [hb]
      rfl
    | some digit =>
      dsimp only [bind, Except.bind]
      rw [hb]
      dsimp only
      rw [ih (h * 16 + digit) (by omega)]
      cases ((content.drop (offset + 1)).take n).mapM hexValue <;> rfl

/-- **Four digits**, of what is left or of a part of it. -/
theorem parseHex4_eq {inputEnd : ℕ} (hfits : offset + 4 ≤ inputEnd)
    (hend : inputEnd ≤ content.length) :
    parseHex4 content offset = .ok (RdpMcp.parseHex4 (slice content offset inputEnd)) := by
  rw [parseHex4, hexDigits_eq 4 0 (by omega), RdpMcp.parseHex4, take_slice hfits]

/-- Bytes that are no backslash. -/
def plain (bytes : List UInt8) : ℕ :=
  bytes.countP (· ≠ 0x5c)

theorem plain_cons_of_ne {b : UInt8} (h : b ≠ 0x5c) (bytes : List UInt8) :
    plain (b :: bytes) = plain bytes + 1 :=
  List.countP_cons_of_pos (decide_eq_true h)

theorem plain_le_cons (b : UInt8) (bytes : List UInt8) : plain bytes ≤ plain (b :: bytes) :=
  (List.sublist_cons_self b bytes).countP_le

theorem mapM_hexValue_of_mem {digits : List UInt8} (h : 0x5c ∈ digits) :
    digits.mapM hexValue = none := by
  induction digits with
  | nil => cases h
  | cons c digits ih =>
    rw [List.mapM_cons]
    rcases List.mem_cons.1 h with rfl | hmem
    · rfl
    · rw [ih hmem]
      cases hexValue c <;> rfl

/-- Digits are no backslashes; what are no digits reads as zero. -/
theorem plain_of_parseHex4_ne_zero {input : List UInt8} (h : RdpMcp.parseHex4 input ≠ 0) :
    plain (input.take 4) = (input.take 4).length := by
  rw [plain, List.countP_eq_length]
  intro b hb
  rw [decide_eq_true_eq]
  rintro rfl
  exact h (by rw [RdpMcp.parseHex4, mapM_hexValue_of_mem hb]; rfl)

theorem length_encodeUtf8 {codepoint : ℕ} {bytes : List UInt8}
    (h : encodeUtf8 codepoint = some bytes) :
    bytes.length ≤ 4 ∧ (codepoint = 0 → bytes.length = 1) := by
  rw [encodeUtf8] at h
  split_ifs at h
  all_goals
    obtain rfl := Option.some.inj h
    refine ⟨by simp, fun hzero ↦ ?_⟩
    first
      | rfl
      | omega

/-- What a literal is decoded to, and its length: it lies in the string, and every byte of it that
is no backslash has a place for one that is written. -/
def FitsLiteral (content : List UInt8) (pointer inputEnd : ℕ) (result : List UInt8 × ℕ) : Prop :=
  0 < result.2 ∧ pointer + result.2 ≤ inputEnd ∧
    result.1.length ≤ plain ((slice content pointer inputEnd).take result.2)

theorem finds_encoded {P : Prop} {pointer inputEnd length codepoint : ℕ} (hpos : 0 < length)
    (hend : pointer + length ≤ inputEnd)
    (hplain : ∀ bytes, encodeUtf8 codepoint = some bytes →
      bytes.length ≤ plain ((slice content pointer inputEnd).take length)) :
    Finds P (FitsLiteral content pointer inputEnd) id (encoded codepoint length)
      ((encodeUtf8 codepoint).map (·, length)) := by
  rw [encoded]
  cases hencode : encodeUtf8 codepoint with
  | none => exact finds_failed
  | some bytes =>
    refine finds_ok ⟨hpos, hend, hplain bytes hencode⟩ fun c hc ↦ ?_
    exact (Option.mem_some_iff.1 hc).symm

/-- What the second half of a surrogate pair should be. -/
def secondCodepoint (second : List UInt8) (firstCode : ℕ) : Option ℕ :=
  if second.length < 6 then none
  else if second.take 2 ≠ [0x5c, 0x75] then none
  else
    let secondCode := RdpMcp.parseHex4 (second.drop 2)
    if secondCode < 0xdc00 ∨ secondCode > 0xdfff then none
    else some (0x10000 + (((firstCode &&& 0x3ff) <<< 10) ||| (secondCode &&& 0x3ff)))

theorem finds_secondSequence {P : Prop} {pointer inputEnd : ℕ} (hend : inputEnd ≤ content.length)
    (firstCode : ℕ) :
    Finds P (fun _ ↦ pointer + 6 ≤ inputEnd) id
      (secondSequence content pointer inputEnd firstCode)
      (secondCodepoint (slice content pointer inputEnd) firstCode) := by
  rw [secondSequence, secondCodepoint, length_slice hend]
  by_cases hshort : inputEnd < pointer + 6
  · rw [if_pos hshort, if_pos (by omega)]
    exact finds_failed
  · have hpointer : pointer + 1 < content.length := by omega
    have htake : (slice content pointer inputEnd).take 2 =
        [content[pointer], content[pointer + 1]] := by
      rw [slice_eq_cons (by omega) hend, slice_eq_cons (by omega) hend]
      rfl
    rw [if_neg hshort, if_neg (by omega), load_eq_ok (by omega), load_eq_ok hpointer,
      parseHex4_eq (by omega) hend, drop_slice, htake]
    generalize RdpMcp.parseHex4 (slice content (pointer + 2) inputEnd) = secondCode
    dsimp only [bind, Except.bind]
    by_cases hback : content[pointer] = 0x5c
    · by_cases hu : content[pointer + 1] = 0x75
      · rw [if_neg (not_not.2 hback), if_neg (not_not.2 hu), hback, hu, if_neg (not_not.2 rfl)]
        split_ifs with hcode
        · exact finds_failed
        · exact finds_ok (by omega) fun c hc ↦ (Option.mem_some_iff.1 hc).symm
      · rw [if_neg (not_not.2 hback), if_pos hu,
          if_pos fun heq ↦ hu (List.cons.inj (List.cons.inj heq).2).1]
        exact finds_failed
    · rw [if_pos hback, if_pos fun heq ↦ hback (List.cons.inj heq).1]
      exact finds_failed

/-- **A `u` literal** reads only its string. -/
theorem finds_utf16LiteralToUtf8 {P : Prop} {pointer inputEnd : ℕ}
    (hend : inputEnd ≤ content.length) (hpointer : pointer + 1 < content.length)
    (hu : content[pointer + 1] = 0x75) :
    Finds P (FitsLiteral content pointer inputEnd) id (utf16LiteralToUtf8 content pointer inputEnd)
      (utf16Literal (slice content pointer inputEnd)) := by
  rw [utf16LiteralToUtf8, utf16Literal, length_slice hend]
  by_cases hshort : inputEnd < pointer + 6
  · rw [if_pos hshort, if_pos (by omega)]
    exact finds_failed
  · rw [if_neg hshort, if_neg (by omega), parseHex4_eq (by omega) hend, drop_slice]
    have htake : (slice content pointer inputEnd).take 6 = content[pointer] :: 0x75 ::
        (slice content (pointer + 2) inputEnd).take 4 := by
      rw [slice_eq_cons (by omega) hend, slice_eq_cons (by omega) hend, hu]
      rfl
    have hone : 1 ≤ plain ((slice content pointer inputEnd).take 6) := by
      rw [htake]
      refine Nat.le_trans ?_ (plain_le_cons _ _)
      rw [plain_cons_of_ne (by decide)]
      omega
    have hfour : RdpMcp.parseHex4 (slice content (pointer + 2) inputEnd) ≠ 0 →
        4 ≤ plain ((slice content pointer inputEnd).take 6) := by
      intro hne
      rw [htake]
      refine Nat.le_trans ?_ (plain_le_cons _ _)
      rw [plain_cons_of_ne (by decide), plain_of_parseHex4_ne_zero hne, List.length_take,
        length_slice hend]
      omega
    generalize RdpMcp.parseHex4 (slice content (pointer + 2) inputEnd) = firstCode at hfour ⊢
    dsimp only [bind, Except.bind]
    by_cases hlow : 0xdc00 ≤ firstCode ∧ firstCode ≤ 0xdfff
    · rw [if_pos hlow, if_pos hlow]
      exact finds_failed
    · rw [if_neg hlow, if_neg hlow]
      by_cases hhigh : 0xd800 ≤ firstCode ∧ firstCode ≤ 0xdbff
      · -- a surrogate pair
        rw [if_pos hhigh, if_pos hhigh]
        have hsecond : Finds P (fun _ ↦ pointer + 6 + 6 ≤ inputEnd) id
            (secondSequence content (pointer + 6) inputEnd firstCode)
            (secondCodepoint (slice content (pointer + 6) inputEnd) firstCode) :=
          finds_secondSequence hend firstCode
        have hpair : Finds P (FitsLiteral content pointer inputEnd) id
            (secondSequence content (pointer + 6) inputEnd firstCode >>= (encoded · 12))
            ((secondCodepoint (slice content (pointer + 6) inputEnd) firstCode).bind fun codepoint ↦
              (encodeUtf8 codepoint).map (·, 12)) := by
          refine hsecond.bind fun codepoint hfits ↦
            finds_encoded (by decide) (by omega) fun bytes hbytes ↦ ?_
          refine (length_encodeUtf8 hbytes).1.trans ((hfour (by omega)).trans ?_)
          exact (List.take_sublist_take_left (by decide)).countP_le
        refine hpair.of_imp fun c hc ↦ ?_
        rw [drop_slice] at hc
        rw [secondCodepoint]
        dsimp only
        split_ifs at hc ⊢ <;> exact hc
      · rw [if_neg hhigh, if_neg hhigh]
        refine finds_encoded (by decide) (by omega) fun bytes hbytes ↦ ?_
        obtain ⟨hle, hzero⟩ := length_encodeUtf8 hbytes
        by_cases hcode : firstCode = 0
        · rw [hzero hcode]
          exact hone
        · exact hle.trans (hfour hcode)

/-! ### Strings -/

/-- Whether the first loop ends within an escape, from a place that is or is not within one. -/
def endsInEscape : Bool → List UInt8 → Bool
  | inEscape, [] => inEscape
  | true, _ :: bytes => endsInEscape false bytes
  | false, b :: bytes => endsInEscape (b == 0x5c) bytes

/-- The bytes of a literal less one for each escape. -/
def room : Bool → List UInt8 → ℕ
  | _, [] => 0
  | true, _ :: bytes => room false bytes + 1
  | false, b :: bytes => if b = 0x5c then room true bytes else room false bytes + 1

theorem endsInEscape_plain {b : UInt8} (h : b ≠ 0x5c) (inEscape : Bool) (bytes : List UInt8) :
    endsInEscape inEscape (b :: bytes) = endsInEscape false bytes := by
  cases inEscape with
  | false => rw [endsInEscape, beq_false_of_ne h]
  | true => rfl

theorem room_plain {b : UInt8} (h : b ≠ 0x5c) (inEscape : Bool) (bytes : List UInt8) :
    room inEscape (b :: bytes) = room false bytes + 1 := by
  cases inEscape with
  | false => rw [room, if_neg h]
  | true => rfl

/-- **Every byte that is no backslash has a place**, wherever the literal is cut. -/
theorem exists_room_drop (n : ℕ) {inEscape : Bool} {bytes : List UInt8}
    (h : endsInEscape inEscape bytes = false) :
    ∃ inEscape', endsInEscape inEscape' (bytes.drop n) = false ∧
      plain (bytes.take n) + room inEscape' (bytes.drop n) ≤ room inEscape bytes := by
  induction n generalizing inEscape bytes with
  | zero => exact ⟨inEscape, h, (Nat.zero_add _).le⟩
  | succ n ih =>
    cases bytes with
    | nil => exact ⟨inEscape, h, Nat.le_refl _⟩
    | cons b bytes =>
      rw [List.drop_succ_cons, List.take_succ_cons]
      by_cases hb : b = 0x5c
      · subst hb
        have hplain (bytes : List UInt8) : plain (0x5c :: bytes) = plain bytes :=
          List.countP_cons_of_neg (by decide)
        rw [hplain]
        cases inEscape with
        | false => exact ih h
        | true =>
          obtain ⟨inEscape', hends, hle⟩ := ih (show endsInEscape false bytes = false from h)
          exact ⟨inEscape', hends, Nat.le_succ_of_le hle⟩
      · rw [endsInEscape_plain hb] at h
        rw [room_plain hb, plain_cons_of_ne hb]
        obtain ⟨inEscape', hends, hle⟩ := ih h
        exact ⟨inEscape', hends, by omega⟩

/-- What the first loop has found: the closing quote, and the room that is left. -/
def Scanned (content : List UInt8) (start skipped : ℕ) (result : ℕ × ℕ) : Prop :=
  start ≤ result.1 ∧ result.1 < content.length ∧
    endsInEscape false (slice content start result.1) = false ∧
      room false (slice content start result.1) + result.2 = result.1 - start + skipped

/-- **The first loop** finds the literal. -/
theorem finds_scanString {P : Prop} {left start : ℕ} (skipped : ℕ)
    (hstart : start ≤ content.length) (hleft : content.length < start + left) :
    Finds P (Scanned content start skipped)
      (fun result ↦ (slice content start result.1, content.drop (result.1 + 1)))
      (scanString content left start skipped) (RdpMcp.scanString (content.drop start)) := by
  induction left generalizing start skipped with
  | zero => omega
  | succ left ih =>
    rw [scanString]
    by_cases hend : content.length ≤ start
    · rw [if_pos hend, List.drop_eq_nil_of_le hend]
      exact finds_failed
    · have hlt : start < content.length := by omega
      rw [if_neg hend, load_eq_ok hlt, drop_eq_cons hlt]
      dsimp only [bind, Except.bind]
      by_cases hquote : content[start] = 0x22
      · rw [if_pos hquote, hquote, scanString_quote]
        refine finds_ok ⟨Nat.le_refl _, hlt, ?_, ?_⟩ fun c hc ↦ ?_
        · rw [slice_eq_nil (Nat.le_refl _)]
          rfl
        · rw [slice_eq_nil (Nat.le_refl _)]
          simp [room]
        · rw [slice_eq_nil (Nat.le_refl _)]
          exact (Option.mem_some_iff.1 hc).symm
      · rw [if_neg hquote]
        by_cases hback : content[start] = 0x5c
        · rw [if_pos hback, hback]
          by_cases hlast : content.length ≤ start + 1
          · rw [if_pos hlast, List.drop_eq_nil_of_le hlast]
            exact finds_failed
          · have hlt' : start + 1 < content.length := by omega
            rw [if_neg hlast, drop_eq_cons hlt', scanString_escape]
            refine (ih (skipped + 1) (by omega) (by omega)).mono fun result hscanned ↦ ?_
            obtain ⟨hle, hlength, hends, hroom⟩ := hscanned
            have hcons : slice content start result.1 =
                0x5c :: content[start + 1] :: slice content (start + 2) result.1 := by
              rw [slice_eq_cons (by omega) (by omega), slice_eq_cons (by omega) (by omega), hback]
            refine ⟨⟨by omega, hlength, ?_, ?_⟩, ?_⟩
            · rw [hcons]
              exact hends
            · rw [hcons]
              show room false (slice content (start + 2) result.1) + 1 + result.2 = _
              omega
            · rw [hcons]
        · rw [if_neg hback, scanString_plain _ hquote hback]
          refine (ih skipped (by omega) (by omega)).mono fun result hscanned ↦ ?_
          obtain ⟨hle, hlength, hends, hroom⟩ := hscanned
          have hcons : slice content start result.1 =
              content[start] :: slice content (start + 1) result.1 :=
            slice_eq_cons (by omega) (by omega)
          refine ⟨⟨by omega, hlength, ?_, ?_⟩, ?_⟩
          · rw [hcons, endsInEscape_plain hback]
            exact hends
          · rw [hcons, room_plain hback]
            omega
          · rw [hcons]

/-- What a backslash is written for has a place: the byte behind it, or its own. -/
theorem exists_room_escape {inEscape : Bool} {bytes : List UInt8}
    (h : endsInEscape inEscape (0x5c :: bytes) = false) :
    ∃ inEscape', endsInEscape inEscape' (bytes.drop 1) = false ∧
      room inEscape' (bytes.drop 1) + 1 ≤ room inEscape (0x5c :: bytes) := by
  cases inEscape with
  | true =>
    obtain ⟨inEscape', hends, hle⟩ :=
      exists_room_drop 1 (show endsInEscape false bytes = false from h)
    refine ⟨inEscape', hends, ?_⟩
    show _ ≤ room false bytes + 1
    omega
  | false =>
    cases bytes with
    | nil => cases h
    | cons c bytes => exact ⟨false, h, Nat.le_refl _⟩

theorem decodeString_skip (n : ℕ) (bytes : List UInt8) :
    RdpMcp.decodeString n bytes = RdpMcp.decodeString 0 (bytes.drop n) := by
  induction n generalizing bytes with
  | zero => rfl
  | succ n ih =>
    cases bytes with
    | nil => rfl
    | cons b bytes =>
      rw [RdpMcp.decodeString.eq_def]
      dsimp only
      rw [if_pos (Nat.succ_pos n), List.drop_succ_cons]
      exact ih bytes

theorem utf16Literal_pos {input : List UInt8} {result : List UInt8 × ℕ}
    (h : utf16Literal input = some result) : 0 < result.2 := by
  rw [utf16Literal] at h
  dsimp only at h
  split_ifs at h
  all_goals
    obtain ⟨bytes, -, rfl⟩ := Option.map_eq_some_iff.1 h
    exact Nat.succ_pos _

section Decode

variable {b c byte : UInt8} {bytes : List UInt8}

theorem decodeString_plain (hb : b ≠ 0x5c) :
    RdpMcp.decodeString 0 (b :: bytes) = (RdpMcp.decodeString 0 bytes).map (b :: ·) := by
  rw [RdpMcp.decodeString.eq_def]
  dsimp only
  rw [if_neg (Nat.lt_irrefl 0), if_pos hb]

theorem decodeString_simple (h : simpleEscape c = some byte) :
    RdpMcp.decodeString 0 (0x5c :: c :: bytes) =
      (RdpMcp.decodeString 0 bytes).map (byte :: ·) := by
  rw [RdpMcp.decodeString.eq_def]
  dsimp only
  rw [if_neg (Nat.lt_irrefl 0), if_neg (by decide), h]
  dsimp only
  rw [decodeString_skip]
  rfl

theorem decodeString_utf16 :
    RdpMcp.decodeString 0 (0x5c :: 0x75 :: bytes) =
      (utf16Literal (0x5c :: 0x75 :: bytes)).bind fun result ↦
        (RdpMcp.decodeString 0 ((0x75 :: bytes).drop (result.2 - 1))).map (result.1 ++ ·) := by
  rw [RdpMcp.decodeString.eq_def]
  dsimp only
  rw [if_neg (Nat.lt_irrefl 0), if_neg (by decide), show simpleEscape 0x75 = none by decide]
  dsimp only
  rw [if_pos rfl]
  cases utf16Literal (0x5c :: 0x75 :: bytes) with
  | none => rfl
  | some result => exact congrArg (Option.map (result.1 ++ ·)) (decodeString_skip _ _)

theorem decodeString_unknown (h : simpleEscape c = none) (hu : c ≠ 0x75) :
    RdpMcp.decodeString 0 (0x5c :: c :: bytes) = none := by
  rw [RdpMcp.decodeString.eq_def]
  dsimp only
  rw [if_neg (Nat.lt_irrefl 0), if_neg (by decide), h]
  exact if_neg hu

end Decode

theorem map_nil_append (found : Option (List UInt8)) : found.map ([] ++ ·) = found := by
  cases found <;> rfl

theorem map_append_append (found : Option (List UInt8)) (front new : List UInt8) :
    found.map (front ++ new ++ ·) = (found.map (new ++ ·)).map (front ++ ·) := by
  rw [Option.map_map]
  congr 1
  funext bytes
  exact List.append_assoc front new bytes

/-- **The second loop** writes within its room. What it has written stands in front of the output.
-/
theorem finds_decodeString {P : Prop} {left inputPointer inputEnd outputPointer : ℕ}
    {output front : List UInt8} {inEscape : Bool} (hend : inputEnd < content.length)
    (hpos : 0 < left) (hleft : inputEnd < inputPointer + left)
    (hends : endsInEscape inEscape (slice content inputPointer inputEnd) = false)
    (hfront : front <+: output) (hpointer : outputPointer = front.length)
    (hroom : front.length + room inEscape (slice content inputPointer inputEnd) < output.length) :
    Finds P (fun result ↦ result.2 < result.1.length) (fun result ↦ result.1.take result.2)
      (decodeString content inputEnd left inputPointer output outputPointer)
      ((RdpMcp.decodeString 0 (slice content inputPointer inputEnd)).map (front ++ ·)) := by
  induction left generalizing inputPointer output outputPointer front inEscape with
  | zero => omega
  | succ left ih =>
    rw [decodeString]
    by_cases hdone : inputEnd ≤ inputPointer
    · rw [if_pos hdone, slice_eq_nil hdone]
      obtain ⟨rest, rfl⟩ := hfront
      rw [slice_eq_nil hdone] at hroom
      refine finds_ok (by rw [hpointer]; exact hroom) fun c hc ↦ ?_
      rw [← Option.mem_some_iff.1 hc, hpointer, List.take_left]
      exact List.append_nil front
    · have hlt : inputPointer < content.length := by omega
      have hcons : slice content inputPointer inputEnd =
          content[inputPointer] :: slice content (inputPointer + 1) inputEnd :=
        slice_eq_cons (by omega) hend.le
      have hlt' : inputPointer + 1 < content.length := by omega
      -- behind what is written next
      have hnext (new : List UInt8) (n : ℕ) (inEscape' : Bool) (hn : 0 < n)
          (hends' : endsInEscape inEscape' (slice content (inputPointer + n) inputEnd) = false)
          (hle : new.length + room inEscape' (slice content (inputPointer + n) inputEnd) ≤
            room inEscape (slice content inputPointer inputEnd)) :
          Finds P (fun result ↦ result.2 < result.1.length) (fun result ↦ result.1.take result.2)
            (store output outputPointer new >>= fun output ↦
              decodeString content inputEnd left (inputPointer + n) output
                (outputPointer + new.length))
            ((RdpMcp.decodeString 0 (slice content (inputPointer + n) inputEnd)).map
              (front ++ new ++ ·)) := by
        obtain ⟨bytes, hstore, hfront', hlength⟩ :=
          store_of_prefix new hfront hpointer (by omega)
        rw [hstore]
        refine ih (by omega) (by omega) hends' hfront' ?_ ?_
        · rw [List.length_append, hpointer]
        · rw [List.length_append, hlength]
          omega
      rw [if_neg hdone, load_eq_ok hlt, load_eq_ok hlt']
      dsimp only [bind, Except.bind]
      by_cases hback : content[inputPointer] = 0x5c
      · rw [if_neg (not_not.2 hback)]
        rw [hback] at hcons
        have hliteral (hmore : inputPointer + 1 < inputEnd) :
            slice content inputPointer inputEnd = 0x5c :: content[inputPointer + 1] ::
              slice content (inputPointer + 2) inputEnd := by
          rw [hcons, slice_eq_cons hmore hend.le]
        -- a backslash in front of the closing quote
        have hlast (hmore : ¬inputPointer + 1 < inputEnd) :
            RdpMcp.decodeString 0 (slice content inputPointer inputEnd) = none := by
          rw [hcons, slice_eq_nil (by omega)]
          rfl
        cases hsimple : simpleEscape content[inputPointer + 1] with
        | some byte =>
          dsimp only
          have hends' := hends
          rw [hcons] at hends'
          obtain ⟨inEscape', hends', hle⟩ := exists_room_escape hends'
          rw [drop_slice] at hends' hle
          change room inEscape' (slice content (inputPointer + 2) inputEnd) + 1 ≤ _ at hle
          have hwrite := hnext [byte] 2 inEscape' (by decide) hends' (by
            rw [hcons, List.length_singleton]
            omega)
          refine hwrite.of_imp fun decoded hdecoded ↦ ?_
          by_cases hmore : inputPointer + 1 < inputEnd
          · rw [hliteral hmore, decodeString_simple hsimple] at hdecoded
            rw [map_append_append]
            exact hdecoded
          · rw [hlast hmore] at hdecoded
            cases hdecoded
        | none =>
          dsimp only
          by_cases hu : content[inputPointer + 1] = 0x75
          · rw [if_pos hu]
            have hliteral16 : Finds P (fun result ↦ result.2 < result.1.length)
                (fun result ↦ result.1.take result.2)
                (utf16LiteralToUtf8 content inputPointer inputEnd >>= fun result ↦
                  store output outputPointer result.1 >>= fun output ↦
                    decodeString content inputEnd left (inputPointer + result.2) output
                      (outputPointer + result.1.length))
                ((utf16Literal (slice content inputPointer inputEnd)).bind fun result ↦
                  (RdpMcp.decodeString 0 (slice content (inputPointer + result.2) inputEnd)).map
                    (front ++ result.1 ++ ·)) := by
              refine (finds_utf16LiteralToUtf8 hend.le hlt' hu).bind fun result hfits ↦ ?_
              obtain ⟨hresult, -, hlength⟩ := hfits
              obtain ⟨inEscape', hends', hle⟩ := exists_room_drop result.2 hends
              rw [drop_slice] at hends' hle
              exact hnext result.1 result.2 inEscape' hresult hends' (by omega)
            refine hliteral16.of_imp fun decoded hdecoded ↦ ?_
            by_cases hmore : inputPointer + 1 < inputEnd
            · rw [hliteral hmore, hu, decodeString_utf16] at hdecoded
              rw [hliteral hmore, hu]
              obtain ⟨rest, hrest, rfl⟩ := Option.map_eq_some_iff.1 hdecoded
              obtain ⟨result, hresult, hbytes⟩ := Option.bind_eq_some_iff.1 hrest
              rw [hresult]
              show (RdpMcp.decodeString 0 _).map _ = _
              have hpos := utf16Literal_pos hresult
              have hrest : (0x75 :: slice content (inputPointer + 2) inputEnd).drop
                  (result.2 - 1) = slice content (inputPointer + result.2) inputEnd := by
                rw [← hu, ← slice_eq_cons hmore hend.le, drop_slice]
                congr 1
                omega
              rw [hrest] at hbytes
              rw [map_append_append]
              exact congrArg (Option.map (front ++ ·)) hbytes
            · rw [hlast hmore] at hdecoded
              cases hdecoded
          · rw [if_neg hu]
            have hnone : RdpMcp.decodeString 0 (slice content inputPointer inputEnd) = none := by
              by_cases hmore : inputPointer + 1 < inputEnd
              · rw [hliteral hmore, decodeString_unknown hsimple hu]
              · exact hlast hmore
            rw [hnone]
            exact finds_failed
      · rw [if_pos hback]
        rw [hcons, endsInEscape_plain hback] at hends
        have hwrite := hnext [content[inputPointer]] 1 false Nat.one_pos hends (by
          rw [hcons, room_plain hback, List.length_singleton]
          omega)
        rw [map_append_append] at hwrite
        rw [hcons, decodeString_plain hback]
        exact hwrite

/-- What is allocated has the size that is asked for. -/
def GivesRoom (malloc : ℕ → ℕ → Option (List UInt8)) : Prop :=
  ∀ place size bytes, malloc place size = some bytes → bytes.length = size

/-- All allocations succeed. -/
def Allocates (malloc : ℕ → ℕ → Option (List UInt8)) : Prop :=
  ∀ place size, malloc place size ≠ none

theorem finds_allocate {α γ : Type} {Q : α → Prop} {v : α → γ} {found : Option γ} {place size : ℕ}
    {f : List UInt8 → Checked α} (hmalloc : GivesRoom malloc)
    (hf : ∀ bytes : List UInt8, bytes.length = size →
      Finds (Allocates malloc) Q v (f bytes) found) :
    Finds (Allocates malloc) Q v (allocate malloc place size >>= f) found := by
  rw [allocate]
  cases h : malloc place size with
  | some bytes => exact hf bytes (hmalloc place size bytes h)
  | none => exact fun hP ↦ hP.1 place size h

/-- **A string**, at its opening quote or at what should be one. -/
theorem finds_parseString (hmalloc : GivesRoom malloc) (h : offset < content.length) :
    Finds (Allocates malloc) (Moved content offset) (behind content)
      (parseString malloc content offset) (RdpMcp.parseString (content.drop offset)) := by
  rw [parseString, load_eq_ok h, drop_eq_cons h, RdpMcp.parseString]
  dsimp only [bind, Except.bind]
  by_cases hquote : content[offset] = 0x22
  · rw [if_neg (not_not.2 hquote), if_neg (not_not.2 hquote)]
    refine (finds_scanString 0 (by omega) (by omega)).bind fun result hscanned ↦ ?_
    obtain ⟨inputEnd, skipped⟩ := result
    obtain ⟨hle, hend, hends, hroom⟩ := hscanned
    dsimp only at hle hend hends hroom ⊢
    refine finds_allocate hmalloc fun output houtput ↦ ?_
    have hdecode : Finds (Allocates malloc) (fun result ↦ result.2 < result.1.length)
        (fun result ↦ result.1.take result.2)
        (decodeString content inputEnd (inputEnd - offset) (offset + 1) output 0)
        ((RdpMcp.decodeString 0 (slice content (offset + 1) inputEnd)).map ([] ++ ·)) :=
      finds_decodeString hend (by omega) (by omega) hends List.nil_prefix rfl
        (by rw [List.length_nil]; omega)
    rw [map_nil_append] at hdecode
    refine hdecode.bind fun result hresult ↦ ?_
    obtain ⟨output', outputPointer⟩ := result
    have hlast : outputPointer + [(0 : UInt8)].length ≤ output'.length := Nat.succ_le_of_lt hresult
    obtain ⟨output'', hstore, htake⟩ := exists_store hlast
    dsimp only at hstore htake ⊢
    rw [hstore]
    refine finds_ok ⟨?_, Nat.succ_le_of_lt hend⟩ fun c hc ↦ ?_
    · show offset < inputEnd + 1
      omega
    · rw [← Option.mem_some_iff.1 hc, behind, htake]
  · rw [if_pos hquote, if_pos hquote]
    exact finds_failed

/-! ### Values -/

section Lists

variable (p : List UInt8 → Option (CJson × List UInt8)) (left : ℕ) (rest : List UInt8)

/-- A round of `parseItems`, by the byte behind the item. -/
theorem parseItems_eq :
    RdpMcp.parseItems p (left + 1) rest = (p (skipWhitespace rest)).bind fun result ↦
      match skipWhitespace result.2 with
      | [] => none
      | b :: rest =>
        if b = 0x2c then (RdpMcp.parseItems p left rest).bind fun items ↦
          some (result.1 :: items.1, items.2)
        else if b = 0x5d then some ([result.1], rest)
        else none := by
  rw [RdpMcp.parseItems]
  cases p (skipWhitespace rest) with
  | none => rfl
  | some result =>
    dsimp only [bind, Option.bind]
    generalize skipWhitespace result.2 = ys
    cases ys with
    | nil => rfl
    | cons b rest =>
      by_cases hcomma : b = 0x2c
      · subst hcomma
        rfl
      · by_cases hclose : b = 0x5d
        · subst hclose
          rfl
        · refine Eq.trans ?_ ((if_neg hcomma).trans (if_neg hclose)).symm
          split
          · next heq => exact absurd (List.cons.inj heq).1 hcomma
          · next heq => exact absurd (List.cons.inj heq).1 hclose
          · rfl

/-- A round of `parseFields`, by the bytes behind the name and behind the value. -/
theorem parseFields_eq :
    RdpMcp.parseFields p (left + 1) rest =
      (RdpMcp.parseString (skipWhitespace rest)).bind fun name ↦
        match skipWhitespace name.2 with
        | [] => none
        | b :: rest =>
          if b = 0x3a then (p (skipWhitespace rest)).bind fun value ↦
            match skipWhitespace value.2 with
            | [] => none
            | b :: rest =>
              if b = 0x2c then (RdpMcp.parseFields p left rest).bind fun fields ↦
                some ((name.1, value.1) :: fields.1, fields.2)
              else if b = 0x7d then some ([(name.1, value.1)], rest)
              else none
          else none := by
  rw [RdpMcp.parseFields]
  cases RdpMcp.parseString (skipWhitespace rest) with
  | none => rfl
  | some name =>
    dsimp only [bind, Option.bind]
    generalize skipWhitespace name.2 = ys
    cases ys with
    | nil => rfl
    | cons b rest =>
      by_cases hcolon : b = 0x3a
      · subst hcolon
        refine Eq.trans ?_ (if_pos rfl).symm
        refine congrArg (p (skipWhitespace rest)).bind (funext fun value ↦ ?_)
        generalize skipWhitespace value.2 = zs
        cases zs with
        | nil => rfl
        | cons b rest =>
          by_cases hcomma : b = 0x2c
          · subst hcomma
            rfl
          · by_cases hclose : b = 0x7d
            · subst hclose
              rfl
            · refine Eq.trans ?_ ((if_neg hcomma).trans (if_neg hclose)).symm
              split
              · next heq => exact absurd (List.cons.inj heq).1 hcomma
              · next heq => exact absurd (List.cons.inj heq).1 hclose
              · rfl
      · refine Eq.trans ?_ (if_neg hcolon).symm
        split
        · next heq => exact absurd (List.cons.inj heq).1 hcolon
        · rfl

theorem parseArray_eq :
    RdpMcp.parseArray p rest =
      match skipWhitespace rest with
      | [] => none
      | b :: left =>
        if b = 0x5d then some (.array [], left)
        else (RdpMcp.parseItems p (b :: left).length (b :: left)).bind fun items ↦
          some (.array items.1, items.2) := by
  rw [RdpMcp.parseArray]
  generalize skipWhitespace rest = ys
  cases ys with
  | nil => rfl
  | cons b left =>
    by_cases hclose : b = 0x5d
    · subst hclose
      rfl
    · refine Eq.trans ?_ (if_neg hclose).symm
      split
      · next heq => exact absurd (List.cons.inj heq).1 hclose
      · exact Option.map_eq_bind ..

theorem parseObject_eq :
    RdpMcp.parseObject p rest =
      match skipWhitespace rest with
      | [] => none
      | b :: left =>
        if b = 0x7d then some (.object [], left)
        else (RdpMcp.parseFields p (b :: left).length (b :: left)).bind fun fields ↦
          some (.object fields.1, fields.2) := by
  rw [RdpMcp.parseObject]
  generalize skipWhitespace rest = ys
  cases ys with
  | nil => rfl
  | cons b left =>
    by_cases hclose : b = 0x7d
    · subst hclose
      rfl
    · refine Eq.trans ?_ (if_neg hclose).symm
      split
      · next heq => exact absurd (List.cons.inj heq).1 hclose
      · exact Option.map_eq_bind ..

end Lists

section Items

variable {p : List UInt8 → Option (CJson × List UInt8)} {q : ℕ → Checked (CJson × ℕ)} {left : ℕ}

/-- The parse function of the buffer finds what that on lists finds. -/
def FindsValues (malloc : ℕ → ℕ → Option (List UInt8)) (content : List UInt8)
    (p : List UInt8 → Option (CJson × List UInt8)) (q : ℕ → Checked (CJson × ℕ)) : Prop :=
  ∀ offset ≤ content.length, Finds (Allocates malloc) (Moved content offset) (behind content)
    (q offset) (p (content.drop offset))

/-- **Items**, each behind a bracket or comma. -/
theorem finds_parseItems (hmalloc : GivesRoom malloc) (hparse : FindsValues malloc content p q)
    (hoffset : offset + 1 ≤ content.length) (hpos : 0 < left)
    (hleft : content.length ≤ offset + 1 + left) :
    Finds (Allocates malloc) (Moved content offset) (behind content)
      (parseItems malloc content q left offset)
      (RdpMcp.parseItems p left (content.drop (offset + 1))) := by
  induction left generalizing offset with
  | zero => omega
  | succ left ih =>
    rw [parseItems, parseItems_eq]
    refine finds_allocate hmalloc fun _ _ ↦ ?_
    obtain ⟨o, ho, hle, hend, -, hskip⟩ := bufferSkipWhitespace_eq hoffset
    rw [ho, hskip]
    refine (hparse o hend).bind fun result hmoved ↦ ?_
    obtain ⟨item, o₁⟩ := result
    obtain ⟨hlt, hend₁⟩ := hmoved
    dsimp only at hlt hend₁
    obtain ⟨o₂, ho₂, hle₂, hend₂, -, hskip₂⟩ := bufferSkipWhitespace_eq hend₁
    dsimp only [behind]
    rw [ho₂, hskip₂]
    dsimp only [bind, Except.bind]
    by_cases hlast : content.length ≤ o₂
    · rw [if_pos hlast, List.drop_eq_nil_of_le hlast]
      exact finds_failed
    · have hlt₂ : o₂ < content.length := by omega
      rw [if_neg hlast, load_eq_ok hlt₂, drop_eq_cons hlt₂]
      dsimp only
      split_ifs with hcomma hclose
      · refine (ih (by omega) (by omega) (by omega)).bind fun items hitems ↦ ?_
        refine finds_ok ⟨?_, hitems.2⟩ fun c hc ↦ (Option.mem_some_iff.1 hc).symm
        exact Nat.lt_trans (by omega) hitems.1
      · refine finds_ok ⟨?_, Nat.succ_le_of_lt hlt₂⟩ fun c hc ↦ (Option.mem_some_iff.1 hc).symm
        show offset < o₂ + 1
        omega
      · exact finds_failed

/-- **Fields**, each behind a brace or comma. -/
theorem finds_parseFields (hmalloc : GivesRoom malloc) (hparse : FindsValues malloc content p q)
    (hoffset : offset + 1 ≤ content.length) (hpos : 0 < left)
    (hleft : content.length ≤ offset + 1 + left) :
    Finds (Allocates malloc) (Moved content offset) (behind content)
      (parseFields malloc content q left offset)
      (RdpMcp.parseFields p left (content.drop (offset + 1))) := by
  induction left generalizing offset with
  | zero => omega
  | succ left ih =>
    rw [parseFields, parseFields_eq]
    refine finds_allocate hmalloc fun _ _ ↦ ?_
    by_cases hlast : content.length ≤ offset + 1
    · rw [if_pos hlast, List.drop_eq_nil_of_le hlast]
      exact finds_failed
    obtain ⟨o, ho, hle, hend, hlt, hskip⟩ := bufferSkipWhitespace_eq hoffset
    rw [if_neg hlast, ho, hskip]
    refine (finds_parseString hmalloc (hlt (by omega))).bind fun result hmoved ↦ ?_
    obtain ⟨name, o₁⟩ := result
    obtain ⟨hlt₁, hend₁⟩ := hmoved
    dsimp only at hlt₁ hend₁
    obtain ⟨o₂, ho₂, hle₂, hend₂, -, hskip₂⟩ := bufferSkipWhitespace_eq hend₁
    dsimp only [behind]
    rw [ho₂, hskip₂]
    dsimp only [bind, Except.bind]
    by_cases hlast₂ : content.length ≤ o₂
    · rw [if_pos hlast₂, List.drop_eq_nil_of_le hlast₂]
      exact finds_failed
    have hlt₂ : o₂ < content.length := by omega
    rw [if_neg hlast₂, load_eq_ok hlt₂, drop_eq_cons hlt₂]
    dsimp only
    by_cases hcolon : content[o₂] = 0x3a
    · rw [if_neg (not_not.2 hcolon), if_pos hcolon]
      obtain ⟨o₃, ho₃, hle₃, hend₃, -, hskip₃⟩ := bufferSkipWhitespace_eq (Nat.succ_le_of_lt hlt₂)
      rw [ho₃, hskip₃]
      refine (hparse o₃ hend₃).bind fun result hmoved ↦ ?_
      obtain ⟨value, o₄⟩ := result
      obtain ⟨hlt₄, hend₄⟩ := hmoved
      dsimp only at hlt₄ hend₄
      obtain ⟨o₅, ho₅, hle₅, hend₅, -, hskip₅⟩ := bufferSkipWhitespace_eq hend₄
      dsimp only [behind]
      rw [ho₅, hskip₅]
      dsimp only
      by_cases hlast₅ : content.length ≤ o₅
      · rw [if_pos hlast₅, List.drop_eq_nil_of_le hlast₅]
        exact finds_failed
      have hlt₅ : o₅ < content.length := by omega
      rw [if_neg hlast₅, load_eq_ok hlt₅, drop_eq_cons hlt₅]
      dsimp only
      split_ifs with hcomma hclose
      · refine (ih (by omega) (by omega) (by omega)).bind fun fields hfields ↦ ?_
        refine finds_ok ⟨?_, hfields.2⟩ fun c hc ↦ (Option.mem_some_iff.1 hc).symm
        exact Nat.lt_trans (by omega) hfields.1
      · refine finds_ok ⟨?_, Nat.succ_le_of_lt hlt₅⟩ fun c hc ↦ (Option.mem_some_iff.1 hc).symm
        show offset < o₅ + 1
        omega
      · exact finds_failed
    · rw [if_pos hcolon, if_neg hcolon]
      exact finds_failed

/-- **An array**, at its bracket. -/
theorem finds_parseArray (hmalloc : GivesRoom malloc) (hparse : FindsValues malloc content p q)
    (h : offset < content.length) (hopen : content[offset] = 0x5b) :
    Finds (Allocates malloc) (Moved content offset) (behind content)
      (parseArray malloc content q offset)
      (RdpMcp.parseArray p (content.drop (offset + 1))) := by
  obtain ⟨o, ho, hle, hend, -, hskip⟩ := bufferSkipWhitespace_eq (Nat.succ_le_of_lt h)
  rw [parseArray, load_eq_ok h, parseArray_eq, hskip]
  dsimp only [bind, Except.bind]
  rw [if_neg (not_not.2 hopen), ho]
  dsimp only
  by_cases hlast : content.length ≤ o
  · rw [if_pos hlast, List.drop_eq_nil_of_le hlast]
    exact finds_failed
  · have hlt : o < content.length := by omega
    rw [if_neg hlast, load_eq_ok hlt, drop_eq_cons hlt]
    dsimp only
    split_ifs with hclose
    · refine finds_ok ⟨?_, Nat.succ_le_of_lt hlt⟩ fun c hc ↦ (Option.mem_some_iff.1 hc).symm
      show offset < o + 1
      omega
    · have hitems : Finds (Allocates malloc) (Moved content (o - 1)) (behind content)
          (parseItems malloc content q (content.length - o) (o - 1))
          (RdpMcp.parseItems p (content.length - o) (content.drop (o - 1 + 1))) :=
        finds_parseItems hmalloc hparse (by omega) (by omega) (by omega)
      rw [Nat.sub_add_cancel (by omega)] at hitems
      rw [← drop_eq_cons hlt, List.length_drop]
      refine hitems.bind fun items hmoved ↦ ?_
      refine finds_ok ⟨?_, hmoved.2⟩ fun c hc ↦ (Option.mem_some_iff.1 hc).symm
      exact Nat.lt_of_le_of_lt (by omega) hmoved.1

/-- **An object**, at its brace. -/
theorem finds_parseObject (hmalloc : GivesRoom malloc) (hparse : FindsValues malloc content p q)
    (h : offset < content.length) (hopen : content[offset] = 0x7b) :
    Finds (Allocates malloc) (Moved content offset) (behind content)
      (parseObject malloc content q offset)
      (RdpMcp.parseObject p (content.drop (offset + 1))) := by
  obtain ⟨o, ho, hle, hend, -, hskip⟩ := bufferSkipWhitespace_eq (Nat.succ_le_of_lt h)
  rw [parseObject, if_neg (Nat.not_le.2 h), load_eq_ok h, parseObject_eq, hskip]
  dsimp only [bind, Except.bind]
  rw [if_neg (not_not.2 hopen), ho]
  dsimp only
  by_cases hlast : content.length ≤ o
  · rw [if_pos hlast, List.drop_eq_nil_of_le hlast]
    exact finds_failed
  · have hlt : o < content.length := by omega
    rw [if_neg hlast, load_eq_ok hlt, drop_eq_cons hlt]
    dsimp only
    split_ifs with hclose
    · refine finds_ok ⟨?_, Nat.succ_le_of_lt hlt⟩ fun c hc ↦ (Option.mem_some_iff.1 hc).symm
      show offset < o + 1
      omega
    · have hfields : Finds (Allocates malloc) (Moved content (o - 1)) (behind content)
          (parseFields malloc content q (content.length - o) (o - 1))
          (RdpMcp.parseFields p (content.length - o) (content.drop (o - 1 + 1))) :=
        finds_parseFields hmalloc hparse (by omega) (by omega) (by omega)
      rw [Nat.sub_add_cancel (by omega)] at hfields
      rw [← drop_eq_cons hlt, List.length_drop]
      refine hfields.bind fun fields hmoved ↦ ?_
      refine finds_ok ⟨?_, hmoved.2⟩ fun c hc ↦ (Option.mem_some_iff.1 hc).symm
      exact Nat.lt_of_le_of_lt (by omega) hmoved.1

end Items

section Values

variable {nesting : ℕ} {parse : Option (ℕ → Checked (CJson × ℕ))}

/-- A word that is read is in the buffer as a whole. -/
theorem finds_word {P : Prop} {word : List UInt8} {n : ℕ} (item : CJson)
    (h : (content.drop offset).take n = word) (hn : word.length = n) (hpos : 0 < n) :
    Finds P (Moved content offset) (behind content) (.ok (item, offset + n))
      (some (item, (content.drop offset).drop n)) := by
  have hlength := congrArg List.length h
  rw [List.length_take, List.length_drop, hn] at hlength
  have hmoved : Moved content offset (item, offset + n) := by
    constructor <;> dsimp only <;> omega
  refine finds_ok hmoved fun c hc ↦ ?_
  rw [← Option.mem_some_iff.1 hc, List.drop_drop]
  rfl

/-- **A value**, when the values inside it are found. -/
theorem finds_parseValueWith (hstrtod : Lawful strtod) (hmalloc : GivesRoom malloc)
    (hparse : (nesting = 0 ∧ parse = none) ∨ ∃ n q, nesting = n + 1 ∧ parse = some q ∧
      FindsValues malloc content (RdpMcp.parseValue strtod n) q) :
    FindsValues malloc content (RdpMcp.parseValue strtod nesting)
      (parseValueWith strtod malloc content parse) := by
  intro offset h
  have hnullWord : canReadWord content offset (utf8 "null") =
      .ok (decide ((content.drop offset).take 4 = utf8 "null")) := canReadWord_eq h _
  have hfalseWord : canReadWord content offset (utf8 "false") =
      .ok (decide ((content.drop offset).take 5 = utf8 "false")) := canReadWord_eq h _
  have htrueWord : canReadWord content offset (utf8 "true") =
      .ok (decide ((content.drop offset).take 4 = utf8 "true")) := canReadWord_eq h _
  rw [parseValueWith.eq_def, RdpMcp.parseValue.eq_def, hnullWord, hfalseWord, htrueWord]
  dsimp only [bind, Except.bind]
  by_cases hnull : (content.drop offset).take 4 = utf8 "null"
  · rw [if_pos (decide_eq_true hnull), if_pos hnull]
    exact finds_word .null hnull rfl (by decide)
  rw [if_neg (by simpa using hnull), if_neg hnull]
  by_cases hfalse : (content.drop offset).take 5 = utf8 "false"
  · rw [if_pos (decide_eq_true hfalse), if_pos hfalse]
    exact finds_word (.bool false) hfalse rfl (by decide)
  rw [if_neg (by simpa using hfalse), if_neg hfalse]
  by_cases htrue : (content.drop offset).take 4 = utf8 "true"
  · rw [if_pos (decide_eq_true htrue), if_pos htrue]
    exact finds_word (.bool true) htrue rfl (by decide)
  rw [if_neg (by simpa using htrue), if_neg htrue]
  by_cases hend : content.length ≤ offset
  · rw [if_pos hend, List.drop_eq_nil_of_le hend]
    exact finds_failed
  have hlt : offset < content.length := by omega
  rw [if_neg hend, load_eq_ok hlt, drop_eq_cons hlt]
  dsimp only
  by_cases hquote : content[offset] = 0x22
  · rw [if_pos hquote, if_pos hquote, ← drop_eq_cons hlt]
    rw [Option.map_eq_bind]
    refine (finds_parseString hmalloc hlt).bind fun result hmoved ↦ ?_
    exact finds_ok hmoved fun c hc ↦ (Option.mem_some_iff.1 hc).symm
  rw [if_neg hquote, if_neg hquote]
  by_cases hnumber : content[offset] = 0x2d ∨ (0x30 ≤ content[offset] ∧ content[offset] ≤ 0x39)
  · rw [if_pos hnumber, if_pos hnumber, ← drop_eq_cons hlt]
    exact finds_parseNumber hstrtod offset
  rw [if_neg hnumber, if_neg hnumber]
  obtain ⟨rfl, rfl⟩ | ⟨n, q, rfl, rfl, hq⟩ := hparse
  · dsimp only
    split_ifs <;> exact finds_failed
  · dsimp only
    by_cases hbracket : content[offset] = 0x5b
    · rw [if_pos hbracket, if_pos hbracket]
      exact finds_parseArray hmalloc hq hlt hbracket
    rw [if_neg hbracket, if_neg hbracket]
    by_cases hbrace : content[offset] = 0x7b
    · rw [if_pos hbrace, if_pos hbrace]
      exact finds_parseObject hmalloc hq hlt hbrace
    · rw [if_neg hbrace, if_neg hbrace]
      exact finds_failed

/-- **A value**, wherever it should be. -/
theorem finds_parseValue (hstrtod : Lawful strtod) (hmalloc : GivesRoom malloc) (nesting : ℕ) :
    FindsValues malloc content (RdpMcp.parseValue strtod nesting)
      (parseValue strtod malloc content nesting) := by
  induction nesting with
  | zero => exact finds_parseValueWith hstrtod hmalloc (.inl ⟨rfl, rfl⟩)
  | succ nesting ih =>
    exact finds_parseValueWith hstrtod hmalloc (.inr ⟨nesting, _, rfl, rfl, ih⟩)

end Values

/-- `cJSON_Parse` finds what the parser on what is left of the buffer does. -/
theorem finds_cJsonParse (hstrtod : Lawful strtod) (hmalloc : GivesRoom malloc)
    (text : List UInt8) :
    Finds (Allocates malloc) (fun _ ↦ True) id (cJsonParse strtod malloc text)
      (RdpMcp.cJsonParse strtod text) := by
  rw [cJsonParse, RdpMcp.cJsonParse]
  refine finds_allocate hmalloc fun _ _ ↦ ?_
  obtain ⟨o, ho, hle, -, hbom⟩ : ∃ o, skipUtf8Bom (text ++ [0]) = .ok o ∧
      o ≤ (text ++ [0]).length ∧ (0 < (text ++ [0]).length → o < (text ++ [0]).length) ∧
      RdpMcp.skipUtf8Bom (text ++ [0]) = (text ++ [0]).drop o := skipUtf8Bom_eq
  obtain ⟨o', ho', -, hle', -, hskip⟩ := bufferSkipWhitespace_eq hle
  rw [ho, hbom, hskip]
  dsimp only [bind, Except.bind]
  rw [ho']
  dsimp only
  rw [Option.map_eq_bind]
  refine (finds_parseValue hstrtod hmalloc nestingLimit o' hle').bind fun result _ ↦ ?_
  exact finds_ok trivial fun c hc ↦ (Option.mem_some_iff.1 hc).symm

/-- **The parser stays in its buffer.** On no text does `cJSON_Parse` read beyond the terminator,
write beyond what it has allocated for a string, or go on for ever. Where the parser on what is left
of the buffer reads an item, it reads this item, unless an allocation fails. -/
theorem parse_exact (hstrtod : Lawful strtod) (hmalloc : GivesRoom malloc) (text : List UInt8) :
    cJsonParse strtod malloc text ≠ .error .undefined ∧
      ∀ item, RdpMcp.cJsonParse strtod text = some item →
        (∀ item', cJsonParse strtod malloc text = .ok item' → item' = item) ∧
          (Allocates malloc → cJsonParse strtod malloc text = .ok item) := by
  have hfinds := finds_cJsonParse hstrtod hmalloc text
  refine ⟨hfinds.ne_undefined, fun item hitem ↦ ⟨fun item' hok ↦ ?_, fun hallocates ↦ ?_⟩⟩
  · exact ((hfinds.of_ok hok).2 item hitem).symm
  · obtain ⟨item', hok, -, hsame⟩ := hfinds.exists_ok ⟨hallocates, by rw [hitem]; rfl⟩
    rw [hok, hsame item hitem]
    rfl

/-- `strtod` by hand uses what it has been given. -/
theorem lawful_strtodInteger : Lawful strtodInteger := by
  intro text
  cases text with
  | nil => exact Nat.le_refl 0
  | cons b rest =>
    rw [strtodInteger]
    split_ifs
    · have hlength : (rest.takeWhile fun b ↦ 0x30 ≤ b ∧ b ≤ 0x39).length ≤ rest.length :=
        (List.takeWhile_prefix _).length_le
      dsimp only
      rw [List.length_cons]
      split_ifs <;> omega
    · exact (List.takeWhile_prefix _).length_le

/-- Memory with what was there before. -/
def staleBytes (_ size : ℕ) : Option (List UInt8) :=
  some (List.replicate size 0x5c)

/-- A text with escapes of three kinds. -/
def escapedText : List UInt8 := utf8 " [\"a\\u20ac\\\"\", \x7b\"k\\n\": -12\x7d, null]"

theorem parse_exact_escapedText : cJsonParse strtodInteger staleBytes escapedText = .ok (.array
    [.string (utf8 "a€\""), .object [(utf8 "k\n", .number (.finite (-12)))], .null]) := by
  have hroom : GivesRoom staleBytes := by
    rintro place size bytes ⟨⟩
    exact List.length_replicate
  obtain ⟨-, hexact⟩ := parse_exact lawful_strtodInteger hroom escapedText
  exact (hexact _ rfl).2 fun _ _ ↦ Option.some_ne_none _

end CJsonRead

end RdpMcp
