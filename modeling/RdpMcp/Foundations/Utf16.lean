import Mathlib.Data.Nat.Notation
import Mathlib.Data.List.Basic

/-!
# UTF-16

The encoding of characters as 16-bit code units: one for a character of the basic plane, and a
**surrogate pair** for every other. Decoding is strict: each half of a pair is refused without the
other. So a sequence of code units is well-formed exactly if it encodes a text, and then only that
one (`decode_eq_some_iff`).
-/

namespace Utf16

/-! ### Surrogates -/

/-- The first half of a surrogate pair. -/
def IsLeading (u : UInt16) : Prop :=
  0xd800 ≤ u.toNat ∧ u.toNat < 0xdc00

instance : DecidablePred IsLeading := fun _ ↦ inferInstanceAs (Decidable (_ ∧ _))

/-- The second half of a surrogate pair. -/
def IsTrailing (u : UInt16) : Prop :=
  0xdc00 ≤ u.toNat ∧ u.toNat < 0xe000

instance : DecidablePred IsTrailing := fun _ ↦ inferInstanceAs (Decidable (_ ∧ _))

/-- The first half for a code point. -/
def leading (n : ℕ) : UInt16 :=
  UInt16.ofNat (0xd800 + (n - 0x10000) / 0x400)

/-- The second half for a code point. -/
def trailing (n : ℕ) : UInt16 :=
  UInt16.ofNat (0xdc00 + (n - 0x10000) % 0x400)

/-- The code point of a pair. -/
def combine (u v : UInt16) : ℕ :=
  0x10000 + (u.toNat - 0xd800) * 0x400 + (v.toNat - 0xdc00)

/-! ### Texts -/

/-- The code units of a character. -/
def encode (c : Char) : List UInt16 :=
  if c.toNat < 0x10000 then [UInt16.ofNat c.toNat] else [leading c.toNat, trailing c.toNat]

/-- The text that is encoded, if the code units are well-formed. -/
def decode : List UInt16 → Option (List Char)
  | [] => some []
  | u :: us =>
    if IsLeading u then
      match us with
      | [] => none
      | v :: vs =>
        if IsTrailing v then (decode vs).map (Char.ofNat (combine u v) :: ·) else none
    else if IsTrailing u then none
    else (decode us).map (Char.ofNat u.toNat :: ·)

/-! ### Round trips -/

/-- Code points are below 0x110000, and none is a surrogate. -/
theorem toNat_bounds (c : Char) :
    c.toNat < 0xd800 ∨ 0xe000 ≤ c.toNat ∧ c.toNat < 0x110000 := by
  have hvalid : c.toNat.isValidChar := c.valid
  rw [Nat.isValidChar] at hvalid
  omega

theorem toNat_ofNat_of_isValidChar {n : ℕ} (h : n.isValidChar) : (Char.ofNat n).toNat = n := by
  rw [Char.ofNat, dif_pos h]
  rfl

theorem toNat_leading {n : ℕ} (hn : 0x10000 ≤ n) (hn' : n < 0x110000) :
    (leading n).toNat = 0xd800 + (n - 0x10000) / 0x400 :=
  UInt16.toNat_ofNat_of_lt' (show _ < 2 ^ 16 by omega)

theorem toNat_trailing (n : ℕ) : (trailing n).toNat = 0xdc00 + (n - 0x10000) % 0x400 :=
  UInt16.toNat_ofNat_of_lt' (show _ < 2 ^ 16 by omega)

theorem combine_eq (u v : UInt16) :
    combine u v = 0x10000 + (u.toNat - 0xd800) * 0x400 + (v.toNat - 0xdc00) :=
  rfl

/-- A code point is combined from its halves. -/
theorem combine_halves {n : ℕ} (hn : 0x10000 ≤ n) (hn' : n < 0x110000) :
    combine (leading n) (trailing n) = n := by
  have hcombine := combine_eq (leading n) (trailing n)
  have hleading := toNat_leading hn hn'
  have htrailing := toNat_trailing n
  omega

theorem decode_pair {u v : UInt16} (hleading : IsLeading u) (htrailing : IsTrailing v)
    (us : List UInt16) :
    decode (u :: v :: us) = (decode us).map (Char.ofNat (combine u v) :: ·) := by
  rw [decode.eq_def]
  dsimp only
  rw [if_pos hleading, if_pos htrailing]

theorem decode_single {u : UInt16} (hleading : ¬IsLeading u) (htrailing : ¬IsTrailing u)
    (us : List UInt16) : decode (u :: us) = (decode us).map (Char.ofNat u.toNat :: ·) := by
  rw [decode.eq_def]
  dsimp only
  rw [if_neg hleading, if_neg htrailing]

/-- **A character is decoded first**, whatever follows it. -/
theorem decode_encode_append (c : Char) (us : List UInt16) :
    decode (encode c ++ us) = (decode us).map (c :: ·) := by
  have hbounds := toNat_bounds c
  rw [encode]
  split
  case isTrue hbasic =>
    have hunit : (UInt16.ofNat c.toNat).toNat = c.toNat := UInt16.toNat_ofNat_of_lt' hbasic
    have hleading : ¬IsLeading (UInt16.ofNat c.toNat) := by
      unfold IsLeading
      omega
    have htrailing : ¬IsTrailing (UInt16.ofNat c.toNat) := by
      unfold IsTrailing
      omega
    rw [List.singleton_append, decode_single hleading htrailing, hunit, Char.ofNat_toNat]
  case isFalse hpair =>
    have hn := toNat_leading (n := c.toNat) (by omega) (by omega)
    have hn' := toNat_trailing c.toNat
    have hleading : IsLeading (leading c.toNat) := by
      unfold IsLeading
      omega
    have htrailing : IsTrailing (trailing c.toNat) := by
      unfold IsTrailing
      omega
    rw [List.cons_append, List.singleton_append, decode_pair hleading htrailing,
      combine_halves (by omega) (by omega), Char.ofNat_toNat]

/-- A code unit of a character is the character's code point, or a surrogate. -/
theorem toNat_eq_or_le_of_mem_encode {c : Char} {u : UInt16} (h : u ∈ encode c) :
    u.toNat = c.toNat ∨ 0xd800 ≤ u.toNat := by
  have hbounds := toNat_bounds c
  rw [encode] at h
  split at h
  case isTrue hbasic =>
    obtain rfl := List.mem_singleton.1 h
    exact .inl (UInt16.toNat_ofNat_of_lt' hbasic)
  case isFalse hpair =>
    right
    rcases List.mem_pair.1 h with rfl | rfl
    · rw [toNat_leading (by omega) (by omega)]
      omega
    · rw [toNat_trailing]
      omega

/-- **Only U+0000 is encoded with a code unit `0`.** -/
theorem ne_zero_of_mem_encode {c : Char} (hc : c ≠ '\x00') {u : UInt16} (h : u ∈ encode c) :
    u ≠ 0 := by
  rintro rfl
  rcases toNat_eq_or_le_of_mem_encode h with hcode | hsurrogate
  · exact hc (Char.toNat_inj.1 hcode.symm)
  · exact absurd hsurrogate (by decide)

/-- A code unit that is no surrogate encodes a character. -/
theorem encode_of_not_surrogate {u : UInt16} (hleading : ¬IsLeading u) (htrailing : ¬IsTrailing u) :
    encode (Char.ofNat u.toNat) = [u] := by
  have hlt : u.toNat < 0x10000 := u.toNat_lt
  unfold IsLeading at hleading
  unfold IsTrailing at htrailing
  have hvalid : u.toNat.isValidChar := by
    unfold Nat.isValidChar
    omega
  rw [encode, toNat_ofNat_of_isValidChar hvalid, if_pos hlt, UInt16.ofNat_toNat]

/-- A surrogate pair encodes a character. -/
theorem encode_combine {u v : UInt16} (hleading : IsLeading u) (htrailing : IsTrailing v) :
    encode (Char.ofNat (combine u v)) = [u, v] := by
  obtain ⟨hu, hu'⟩ := hleading
  obtain ⟨hv, hv'⟩ := htrailing
  have hcombine := combine_eq u v
  have hvalid : (combine u v).isValidChar := by
    unfold Nat.isValidChar
    omega
  have hfirst : 0xd800 + (combine u v - 0x10000) / 0x400 = u.toNat := by omega
  have hsecond : 0xdc00 + (combine u v - 0x10000) % 0x400 = v.toNat := by omega
  have hpair : ¬combine u v < 0x10000 := by omega
  rw [encode, toNat_ofNat_of_isValidChar hvalid, if_neg hpair, leading, trailing, hfirst, hsecond,
    UInt16.ofNat_toNat, UInt16.ofNat_toNat]

/-- A text is decoded from its encoding. -/
theorem decode_flatMap_encode (text : List Char) : decode (text.flatMap encode) = some text := by
  induction text with
  | nil => rfl
  | cons c text ih => rw [List.flatMap_cons, decode_encode_append, ih, Option.map_some]

/-- **Well-formed sequences** are the encodings of texts. -/
theorem decode_eq_some_iff {us : List UInt16} {text : List Char} :
    decode us = some text ↔ us = text.flatMap encode := by
  refine ⟨fun h ↦ ?_, fun h ↦ h ▸ decode_flatMap_encode text⟩
  fun_induction decode us generalizing text with
  | case1 =>
    obtain rfl := Option.some.inj h
    rfl
  | case2 => cases h
  | case3 u hleading v vs htrailing ih =>
    obtain ⟨rest, hrest, rfl⟩ := Option.map_eq_some_iff.1 h
    rw [List.flatMap_cons, encode_combine hleading htrailing, ← ih hrest]
    rfl
  | case4 => cases h
  | case5 => cases h
  | case6 u us hleading htrailing ih =>
    obtain ⟨rest, hrest, rfl⟩ := Option.map_eq_some_iff.1 h
    rw [List.flatMap_cons, encode_of_not_surrogate hleading htrailing, ← ih hrest]
    rfl

end Utf16
