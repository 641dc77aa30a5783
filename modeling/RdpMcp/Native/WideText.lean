import RdpMcp.Foundations.LittleEndian
import RdpMcp.Foundations.Utf16
import RdpMcp.Native.Arrival
import RdpMcp.Native.ErrorText

/-!
# Text in 16-bit units

The clipboard channel carries text and file names in UTF-16, and the modules on either side of it
work with UTF-8. The conversions are the library's, and are parameters here. What is relied on is
little: that a text without U+0000 is converted to the same text, in both directions, and that the
one from units stops at the first zero (`Conversions.Faithful`). **What they do with anything else
is left open**: bytes that are no UTF-8, and halves of surrogate pairs.
-/

open LittleEndian

namespace RdpMcp

/-- The code units of a text. -/
def utf16 (text : String) : List UInt16 :=
  text.toList.flatMap Utf16.encode

/-- Code units in memory. -/
def wcharBytes (units : List UInt16) : List UInt8 :=
  units.flatMap fun unit ↦ toBytes 2 unit.toNat

/-- Memory as code units; an odd byte at the end is no unit. -/
def wchars : List UInt8 → List UInt16
  | low :: high :: bytes => UInt16.ofNat (ofBytes [low, high]) :: wchars bytes
  | _ => []

/-- `ConvertUtf8NToWCharAlloc` and `ConvertWCharNToUtf8Alloc`. -/
structure Conversions where
  toWChar : List UInt8 → Option (List UInt16)
  toUtf8 : List UInt16 → Option (List UInt8)

/-- A text that can be passed on as a C string. -/
def CText (text : String) : Prop :=
  '\x00' ∉ text.toList

instance : DecidablePred CText := fun _ ↦ inferInstanceAs (Decidable (¬_))

/-- **What is relied on.** -/
structure Conversions.Faithful (conversions : Conversions) : Prop where
  toWChar : ∀ text, CText text → conversions.toWChar (utf8 text) = some (utf16 text)
  toUtf8 : ∀ text, CText text → ∀ rest : List UInt16, (∀ unit ∈ rest.head?, unit = 0) →
    conversions.toUtf8 (utf16 text ++ rest) = some (utf8 text)

/-! ### Units in memory -/

theorem length_wcharBytes (units : List UInt16) : (wcharBytes units).length = 2 * units.length := by
  induction units with
  | nil => rfl
  | cons unit units ih =>
    rw [wcharBytes, List.flatMap_cons, List.length_append, length_toBytes, ← wcharBytes, ih,
      List.length_cons]
    omega

/-- **Units are read back** from memory. -/
theorem wchars_wcharBytes (units : List UInt16) : wchars (wcharBytes units) = units := by
  induction units with
  | nil => rfl
  | cons unit units ih =>
    obtain ⟨low, high, hbytes⟩ := List.length_eq_two.1 (length_toBytes 2 unit.toNat)
    have hvalue : ofBytes [low, high] = unit.toNat := by
      rw [← hbytes, ofBytes_toBytes_of_lt]
      exact unit.toNat_lt
    rw [wcharBytes, List.flatMap_cons, hbytes, ← wcharBytes, List.cons_append,
      List.singleton_append, wchars, hvalue, UInt16.ofNat_toNat, ih]

/-! ### Texts -/

/-- A character is a byte of its own, or has no byte below 128. -/
theorem utf8EncodeChar_cases (c : Char) :
    (c.toNat < 0x80 ∧ String.utf8EncodeChar c = [UInt8.ofNat c.toNat]) ∨
      (0x80 ≤ c.toNat ∧ ∀ b ∈ String.utf8EncodeChar c, 0x80 ≤ b.toNat) := by
  have hbyte {n : ℕ} (hlow : 0x80 ≤ n) (hlt : n < 256) : 0x80 ≤ (UInt8.ofNat n).toNat := by
    rwa [UInt8.toNat_ofNat_of_lt' hlt]
  fun_cases String.utf8EncodeChar c with
  | case1 v hv =>
    exact .inl ⟨Nat.lt_succ_of_le hv, rfl⟩
  | case2 v hv hv' =>
    refine .inr ⟨Nat.lt_of_not_le hv, fun b hb ↦ ?_⟩
    rcases List.mem_pair.1 hb with rfl | rfl
    · exact hbyte (by omega) (by omega)
    · exact hbyte (by omega) (by omega)
  | case3 v hv hv' hv'' =>
    refine .inr ⟨Nat.lt_of_not_le hv, fun b hb ↦ ?_⟩
    simp only [List.mem_cons, List.not_mem_nil, or_false] at hb
    rcases hb with rfl | rfl | rfl <;> exact hbyte (by omega) (by omega)
  | case4 v hv hv' hv'' =>
    refine .inr ⟨Nat.lt_of_not_le hv, fun b hb ↦ ?_⟩
    simp only [List.mem_cons, List.not_mem_nil, or_false] at hb
    rcases hb with rfl | rfl | rfl | rfl <;> exact hbyte (by omega) (by omega)

theorem length_encode_le (c : Char) :
    (Utf16.encode c).length ≤ (String.utf8EncodeChar c).length := by
  rw [Utf16.encode, String.length_utf8EncodeChar]
  split
  case isTrue => exact c.utf8Size_pos
  case isFalse hpair =>
    have hsize : c.utf8Size = 4 := by
      have hval : ¬c.val.toNat < 0x10000 := hpair
      rw [Char.utf8Size, if_neg, if_neg, if_neg]
      all_goals
        rw [UInt32.le_iff_toNat_le]
        exact fun hle ↦ hval (Nat.lt_of_le_of_lt hle (by decide))
    rw [hsize]
    exact (by decide : 2 ≤ 4)

/-- A text has no more units than bytes. -/
theorem length_utf16_le (text : String) : (utf16 text).length ≤ (utf8 text).length := by
  rw [utf16, utf8_eq_flatMap]
  induction text.toList with
  | nil => exact Nat.le_refl 0
  | cons c chars ih =>
    rw [List.flatMap_cons, List.flatMap_cons, List.length_append, List.length_append]
    exact Nat.add_le_add (length_encode_le c) ih

theorem utf16_ne_nil {text : String} (h : utf8 text ≠ []) : utf16 text ≠ [] := by
  intro hnil
  have hempty : text.toList = [] := by
    have hdecode := Utf16.decode_flatMap_encode text.toList
    rw [← utf16, hnil] at hdecode
    exact (Option.some.inj hdecode).symm
  rw [utf8_eq_flatMap, hempty] at h
  exact h rfl

/-- Only U+0000 has a unit `0`. -/
theorem zero_not_mem_utf16 {text : String} (h : CText text) : 0 ∉ utf16 text := by
  rw [utf16, List.mem_flatMap]
  rintro ⟨c, hc, hzero⟩
  have hnul : c ≠ '\x00' := by
    rintro rfl
    exact h hc
  exact Utf16.ne_zero_of_mem_encode hnul hzero rfl

/-! ### Strict conversions -/

/-- Conversions that fail at the first thing that is no text. -/
def strictConversions : Conversions where
  toWChar bytes := (String.fromUTF8? ⟨bytes.toArray⟩).map utf16
  toUtf8 units :=
    (Utf16.decode (units.takeWhile (· ≠ 0))).map fun chars ↦ utf8 (String.ofList chars)

theorem faithful_strictConversions : strictConversions.Faithful where
  toWChar text _ := by
    rw [strictConversions]
    dsimp only
    rw [fromUTF8?_utf8, Option.map_some]
  toUtf8 text htext rest hrest := by
    have hunits : (utf16 text ++ rest).takeWhile (· ≠ 0) = utf16 text := by
      have hrest' : rest.takeWhile (· ≠ 0) = [] := by
        cases rest with
        | nil => rfl
        | cons unit rest =>
          rw [List.takeWhile_cons_of_neg]
          simpa using hrest unit rfl
      have hunits : ∀ unit ∈ utf16 text, decide (unit ≠ 0) = true := by
        rintro unit hunit
        refine decide_eq_true fun hzero ↦ zero_not_mem_utf16 htext ?_
        rwa [hzero] at hunit
      rw [List.takeWhile_append_of_pos hunits, hrest', List.append_nil]
    rw [strictConversions]
    dsimp only
    rw [hunits, utf16, Utf16.decode_flatMap_encode, Option.map_some, String.ofList_toList]

end RdpMcp
