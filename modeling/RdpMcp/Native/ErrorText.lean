import RdpMcp.Native.Arrival
import RdpMcp.Session.State

/-!
# Error texts on the wire

The native layer reports an error as one line of JSON that it formats with `snprintf` and `%s`, into
a buffer on the stack. Two things are left out: the text is not escaped, and the length that is
handed on is the one `snprintf` returns, which is **that of the whole text and not of what was
written**. The reader on the other side is strict.

So an error text survives exactly if nothing in it needs an escape and the line fits into the buffer
with its terminator (`error_text_survives_iff`). A line one byte too long ends in the terminator,
and a longer one is read from beyond the buffer.

That no other text comes through, as by a quote that closes the string early and a second field
behind it, takes an argument: the string that is read stands between two quotes behind the first
colon, and its literal is never shorter than what it means (`Literal.plain_or_shorter`).
-/

namespace RdpMcp

/-! ### String literals -/

/-- A byte that stands for itself in a JSON string. -/
def PlainByte (b : UInt8) : Prop :=
  0x20 ≤ b ∧ b ≠ 0x22 ∧ b ≠ 0x5c

instance : DecidablePred PlainByte :=
  fun b ↦ inferInstanceAs (Decidable (0x20 ≤ b ∧ b ≠ 0x22 ∧ b ≠ 0x5c))

/-- Nothing in the bytes needs an escape. -/
def PlainText (bytes : List UInt8) : Prop :=
  ∀ b ∈ bytes, PlainByte b

instance : DecidablePred PlainText :=
  fun bytes ↦ List.decidableBAll PlainByte bytes

/-- The number of four hexadecimal digits. -/
def IsHex4 (digits : List UInt8) (n : ℕ) : Prop :=
  digits.length = 4 ∧
    (digits.mapM hexValue).map (List.foldl (fun h digit ↦ h * 16 + digit) 0) = some n

/-- What stands between the quotes of a JSON string, and the bytes it means. -/
inductive Literal : List UInt8 → List UInt8 → Prop
  | nil : Literal [] []
  | plain {b : UInt8} {rest bytes : List UInt8} (h : PlainByte b) (hrest : Literal rest bytes) :
      Literal (b :: rest) (b :: bytes)
  | escape {c b : UInt8} {rest bytes : List UInt8} (h : simpleEscape c = some b)
      (hrest : Literal rest bytes) : Literal (0x5c :: c :: rest) (b :: bytes)
  | unicode {digits rest bytes : List UInt8} {c : Char} (h : IsHex4 digits c.toNat)
      (hrest : Literal rest bytes) :
      Literal (0x5c :: 0x75 :: (digits ++ rest)) (String.utf8EncodeChar c ++ bytes)
  /-- A surrogate pair. -/
  | pair {digits digits' rest bytes : List UInt8} {high low : ℕ} {c : Char}
      (hhigh : IsHex4 digits (0xd800 + high)) (hlow : IsHex4 digits' (0xdc00 + low))
      (hlow' : low < 0x400) (hc : c.toNat = 0x10000 + high * 0x400 + low)
      (hrest : Literal rest bytes) :
      Literal (0x5c :: 0x75 :: (digits ++ 0x5c :: 0x75 :: (digits' ++ rest)))
        (String.utf8EncodeChar c ++ bytes)

/-- **A literal is plain, and means itself, or it is longer than what it means.** -/
theorem Literal.plain_or_shorter {body bytes : List UInt8} (h : Literal body bytes) :
    (body = bytes ∧ PlainText bytes) ∨ bytes.length < body.length := by
  have hchar (c : Char) : (String.utf8EncodeChar c).length ≤ 4 := by
    rw [String.length_utf8EncodeChar]
    exact c.utf8Size_le_four
  induction h with
  | nil => exact .inl ⟨rfl, nofun⟩
  | plain hb _ ih =>
    refine ih.imp ?_ Nat.succ_lt_succ
    rintro ⟨rfl, hplain⟩
    exact ⟨rfl, List.forall_mem_cons.2 ⟨hb, hplain⟩⟩
  | @escape c b rest bytes _ _ ih =>
    have hle : bytes.length ≤ rest.length := ih.elim (fun h ↦ h.1 ▸ le_rfl) le_of_lt
    right
    simp only [List.length_cons]
    omega
  | @unicode digits rest bytes c hdigits _ ih =>
    have hle : bytes.length ≤ rest.length := ih.elim (fun h ↦ h.1 ▸ le_rfl) le_of_lt
    have := hchar c
    right
    simp only [List.length_cons, List.length_append, hdigits.1]
    omega
  | @pair digits digits' rest bytes high low c hhigh hlow _ _ _ ih =>
    have hle : bytes.length ≤ rest.length := ih.elim (fun h ↦ h.1 ▸ le_rfl) le_of_lt
    have := hchar c
    right
    simp only [List.length_cons, List.length_append, hhigh.1, hlow.1]
    omega

theorem literal_of_plainText {bytes : List UInt8} (h : PlainText bytes) : Literal bytes bytes := by
  induction bytes with
  | nil => exact .nil
  | cons b bytes ih =>
    obtain ⟨hb, hbytes⟩ := List.forall_mem_cons.1 h
    exact .plain hb (ih hbytes)

/-! ### The reader -/

/-- An object with one string that is not escaped. -/
def recordText (key : String) (bytes : List UInt8) : List UInt8 :=
  0x7b :: 0x22 :: (utf8 key ++ 0x22 :: 0x3a :: 0x22 :: (bytes ++ [0x22, 0x7d]))

/-- What is relied on `serde_json::from_slice` for: it reads an object whose strings need no escape,
and a string that it reads as a field is the meaning of a literal, between quotes and behind a
colon. -/
structure ReadsStrings (fromSlice : List UInt8 → Option JsonValue) : Prop where
  record : ∀ key message, PlainText (utf8 key) → PlainText (utf8 message) →
    fromSlice (recordText key (utf8 message)) = some (.record [(key, .string message)])
  literal : ∀ text value key string, fromSlice text = some value →
    (value.index key).asStr = some string →
    ∃ before body after, text = before ++ 0x22 :: (body ++ 0x22 :: after) ∧ 0x3a ∈ before ∧
      Literal body (utf8 string)

/-- **If a message is read back from an object that it was put into as it is, it needed no escape.**
-/
theorem plainText_of_read {fromSlice : List UInt8 → Option JsonValue}
    (hread : ReadsStrings fromSlice)
    {key message : String} (hcolon : 0x3a ∉ utf8 key)
    {value : JsonValue} (hvalue : fromSlice (recordText key (utf8 message)) = some value)
    {field : String} (hfield : (value.index field).asStr = some message) :
    PlainText (utf8 message) := by
  obtain ⟨before, body, after, htext, hmem, hliteral⟩ :=
    hread.literal _ _ _ _ hvalue hfield
  rcases hliteral.plain_or_shorter with ⟨-, hplain⟩ | hshorter
  · exact hplain
  exfalso
  have hlength := congrArg List.length htext
  simp only [recordText, List.length_cons, List.length_append, List.length_nil] at hlength
  -- the colon is behind the key
  have hbefore : (utf8 key).length + 4 ≤ before.length := by
    by_contra hshort
    have hprefix : before <+: 0x7b :: 0x22 :: (utf8 key ++ [0x22]) := by
      refine List.prefix_of_prefix_length_le ⟨_, htext.symm⟩
        ⟨0x3a :: 0x22 :: (utf8 message ++ [0x22, 0x7d]), by simp [recordText]⟩ ?_
      simp only [List.length_cons, List.length_append, List.length_nil]
      omega
    have hfront := hprefix.subset hmem
    simp [hcolon] at hfront
  -- and the literal does not reach the end
  have hafter : after ≠ [] := by
    rintro rfl
    have hlast := congrArg List.getLast? htext
    simp [recordText, List.getLast?_cons, List.getLast?_append] at hlast
  have := List.length_pos_iff.2 hafter
  omega

/-! ### The writer -/

/-- `snprintf` into a buffer: what is written, with the terminator, and the value returned. -/
def snprintf (size : ℕ) (text : List UInt8) : List UInt8 × ℤ :=
  (text.take (size - 1) ++ [0], if text.length ≤ 2147483647 then text.length else -1)

/-- A cast to `uint32_t`. -/
def castUint32 (n : ℤ) : ℕ :=
  (n % 4294967296).toNat

/-- What the callback is handed by `output_send` for the front of a buffer. Reading beyond the
buffer is undefined. -/
def outputSend (size : ℕ) (buffer : List UInt8) (length : ℕ) : Option (List UInt8) :=
  if length ≤ size then some (buffer.take length) else none

/-- Format a text into a buffer and send as much of it as `snprintf` says. -/
def sendFormatted (size : ℕ) (text : List UInt8) : Option (List UInt8) :=
  let (json, len) := snprintf size text
  outputSend size json (castUint32 len)

/-- The text that `output_send_error` formats. -/
def errorText (message : List UInt8) : List UInt8 :=
  utf8 "\x7b\"message\":\"" ++ message ++ utf8 "\"\x7d"

/-- The text that `output_send_disconnected` formats, for an error. -/
def disconnectedText (error : List UInt8) : List UInt8 :=
  utf8 "\x7b\"error\":\"" ++ error ++ utf8 "\"\x7d"

/-- `output_send_error`, of a C string without its terminator. -/
def outputSendError (message : Option (List UInt8)) : Option (List UInt8) :=
  sendFormatted 2048 (errorText (message.getD (utf8 "Unknown error")))

/-- `output_send_disconnected`, of a C string without its terminator. -/
def outputSendDisconnected (error : Option (List UInt8)) : Option (List UInt8) :=
  sendFormatted 1024
    (match error with
    | some error => disconnectedText error
    | none => utf8 "\x7b\"error\":null\x7d")

/-- **What fits with its terminator is sent whole.** -/
theorem sendFormatted_of_lt {size : ℕ} {text : List UInt8} (hsize : size ≤ 2048)
    (h : text.length < size) : sendFormatted size text = some text := by
  have hcast : castUint32 (text.length : ℤ) = text.length := by
    rw [castUint32]
    omega
  rw [sendFormatted, snprintf, if_pos (by omega)]
  dsimp only
  rw [outputSend, hcast, if_pos (by omega), List.take_of_length_le (by omega : _ ≤ size - 1),
    List.take_left]

/-- **What fits only without it is sent with the terminator in place of its last byte**, and what
does not fit at all is read from beyond the buffer. -/
theorem sendFormatted_of_le {size : ℕ} {text : List UInt8} (hsize : size ≤ 2048) (hpos : 0 < size)
    (h : size ≤ text.length) : sendFormatted size text =
      if text.length = size then some (text.take (size - 1) ++ [0]) else none := by
  have hlen : castUint32 (if text.length ≤ 2147483647 then text.length else -1) ≤ size ↔
      text.length = size := by
    rw [castUint32]
    split <;> omega
  rw [sendFormatted, snprintf]
  dsimp only
  rw [outputSend, if_congr hlen rfl rfl]
  split
  case isTrue heq =>
    rw [if_pos (by omega), castUint32, List.take_of_length_le (by simp; omega)]
  case isFalse => rfl

/-- So what does not fit is never sent without a byte that is not of the text. -/
theorem zero_mem_of_sendFormatted {size : ℕ} {text payload : List UInt8} (hsize : size ≤ 2048)
    (hpos : 0 < size) (h : size ≤ text.length) (hsent : sendFormatted size text = some payload) :
    0 ∈ payload := by
  rw [sendFormatted_of_le hsize hpos h] at hsent
  split at hsent
  · obtain rfl := Option.some.inj hsent
    exact List.mem_append_right _ (List.mem_singleton_self 0)
  · cases hsent

/-! ### There and back -/

section Survival

variable (bits : ℕ) (fromSlice : List UInt8 → Option JsonValue)

/-- A message that is formatted into a text for a buffer survives: what the callback is handed lies
within the buffer, is JSON, and has no bytes but the text's, and if the text fits into the buffer
with its terminator, the session then has the message as its error. -/
def Survives (s : SessionState) (kind : UInt32) (size : ℕ) (text : List UInt8)
    (sent : Option (List UInt8)) (message : String) : Prop :=
  ∃ payload, sent = some payload ∧ payload.length ≤ size ∧ (fromSlice payload).isSome ∧
    (∀ b ∈ payload, b ∈ text) ∧
    (text.length < size → ∃ t, handleNativeOutput bits fromSlice s kind payload [] = some t ∧
      t.error = some message)

variable {bits fromSlice} {s : SessionState} {kind : UInt32} {size : ℕ} {key message : String}

/-- The two reports, as one: an object with the message under a key. A session that is alive reads
what is under the key, and it has the message as its error only if it reads the message there, or
the message is plain anyway. -/
theorem survives_iff (hread : ReadsStrings fromSlice) (hsize : size ≤ 2048) (hpos : 0 < size)
    (hkey : PlainText (utf8 key)) (hcolon : 0x3a ∉ utf8 key) (hnul : 0 ∉ utf8 message)
    (hkeynul : 0 ∉ utf8 key)
    (hreads : ∀ value t, fromSlice (recordText key (utf8 message)) = some value →
      handleNativeOutput bits fromSlice s kind (recordText key (utf8 message)) [] = some t →
      t.error = some message → s.disconnected = false ∧
        ((value.index key).asStr = some message ∨ PlainText (utf8 message)))
    (hreported : ∀ value, fromSlice (recordText key (utf8 message)) = some value →
      (value.index key).asStr = some message → s.disconnected = false →
      ∃ t, handleNativeOutput bits fromSlice s kind (recordText key (utf8 message)) [] = some t ∧
        t.error = some message) :
    Survives bits fromSlice s kind size (recordText key (utf8 message))
        (sendFormatted size (recordText key (utf8 message))) message ↔
      PlainText (utf8 message) ∧ (utf8 key).length + (utf8 message).length + 7 < size ∧
        s.disconnected = false := by
  have hlength : (recordText key (utf8 message)).length =
      (utf8 key).length + (utf8 message).length + 7 := by
    simp only [recordText, List.length_cons, List.length_append, List.length_nil]
    omega
  have hzero : 0 ∉ recordText key (utf8 message) := by
    simp [recordText, hnul, hkeynul]
  rw [← hlength]
  constructor
  · rintro ⟨payload, hsent, -, hjson, hbytes, herror⟩
    have hfits : (recordText key (utf8 message)).length < size := by
      by_contra hlong
      exact hzero (hbytes 0 (zero_mem_of_sendFormatted hsize hpos (Nat.not_lt.1 hlong) hsent))
    rw [sendFormatted_of_lt hsize hfits] at hsent
    obtain rfl := Option.some.inj hsent
    obtain ⟨value, hvalue⟩ := Option.isSome_iff_exists.1 hjson
    obtain ⟨t, ht, herror⟩ := herror hfits
    obtain ⟨hlive, hfield | hplain⟩ := hreads value t hvalue ht herror
    · exact ⟨plainText_of_read hread hcolon hvalue hfield, hfits, hlive⟩
    · exact ⟨hplain, hfits, hlive⟩
  · rintro ⟨hplain, hfits, hlive⟩
    have hvalue := hread.record key message hkey hplain
    refine ⟨_, sendFormatted_of_lt hsize hfits, hfits.le, by rw [hvalue]; rfl, fun b hb ↦ hb,
      fun _ ↦ hreported _ hvalue ?_ hlive⟩
    simp [JsonValue.record, JsonValue.insertField, JsonValue.index, JsonValue.asStr]

theorem handleNativeOutput_error (payload : List UInt8) :
    handleNativeOutput bits fromSlice s msgError payload [] =
      if s.disconnected then some s
      else some { s with error := some (errorMessage fromSlice payload) } :=
  rfl

/-- **An error text survives exactly if it needs no escape, fits into the buffer, and finds the
session alive.** A session without an error so far, and a message without U+0000, reported by
`output_send_error` or by `output_send_disconnected`. -/
theorem error_text_survives_iff {fromSlice : List UInt8 → Option JsonValue}
    (hread : ReadsStrings fromSlice) (bits : ℕ) {s : SessionState} (hs : s.error = none)
    {message : String} (hnul : '\x00' ∉ message.toList) :
    (Survives bits fromSlice s msgError 2048 (errorText (utf8 message))
        (outputSendError (some (utf8 message))) message ↔
      PlainText (utf8 message) ∧ (utf8 message).length ≤ 2033 ∧ s.disconnected = false) ∧
    (Survives bits fromSlice s msgDisconnected 1024 (disconnectedText (utf8 message))
        (outputSendDisconnected (some (utf8 message))) message ↔
      PlainText (utf8 message) ∧ (utf8 message).length ≤ 1011 ∧ s.disconnected = false) := by
  have hnul' : 0 ∉ utf8 message := fun h ↦ hnul (zero_mem_utf8_iff.1 h)
  have hmessage : errorText (utf8 message) = recordText "message" (utf8 message) := rfl
  have herror : disconnectedText (utf8 message) = recordText "error" (utf8 message) := rfl
  constructor
  · rw [outputSendError, Option.getD_some, hmessage]
    refine (survives_iff hread (by decide) (by decide) (by decide) (by decide) hnul' (by decide)
      (fun value t hvalue ht hreported ↦ ?_) fun value hvalue hfield hlive ↦ ?_).trans ?_
    · rw [handleNativeOutput_error] at ht
      split at ht
      case isTrue =>
        obtain rfl := Option.some.inj ht
        rw [hs] at hreported
        cases hreported
      case isFalse hlive =>
        obtain rfl := Option.some.inj ht
        refine ⟨Bool.not_eq_true _ ▸ hlive, ?_⟩
        have hread := Option.some.inj hreported
        rw [errorMessage, hvalue, Option.bind_some] at hread
        cases hfield : (value.index "message").asStr with
        | none =>
          -- the text that stands in for a missing message is plain
          rw [hfield, Option.getD_none] at hread
          exact .inr (hread ▸ by decide)
        | some field => exact .inl (hread ▸ congrArg some (by rw [hfield, Option.getD_some]))
    · refine ⟨_, (handleNativeOutput_error _).trans (if_neg (by simp [hlive])), ?_⟩
      simp [errorMessage, hvalue, hfield]
    · rw [show (utf8 "message").length = 7 from rfl]
      exact and_congr_right fun _ ↦ and_congr_left fun _ ↦ by omega
  · rw [outputSendDisconnected, herror]
    refine (survives_iff hread (by decide) (by decide) (by decide) (by decide) hnul' (by decide)
      (fun value t hvalue ht hreported ↦ ?_) fun value hvalue hfield hlive ↦ ?_).trans ?_
    · obtain rfl := Option.some.inj ht
      rw [SessionState.stop, disconnectCause, hvalue, Option.bind_some, hs] at hreported
      split at hreported
      case isTrue hlive => exact ⟨by simpa using hlive, .inl hreported⟩
      case isFalse => cases hreported
    · refine ⟨_, rfl, ?_⟩
      simp [SessionState.stop, disconnectCause, hvalue, hfield, hlive, hs]
    · rw [show (utf8 "error").length = 5 from rfl]
      exact and_congr_right fun _ ↦ and_congr_left fun _ ↦ by omega

end Survival

/-! ### A reader of plain objects -/

/-- A reader that knows objects with one string field, without escapes, and nothing else. -/
def plainReader (text : List UInt8) : Option JsonValue :=
  match text with
  | 0x7b :: 0x22 :: rest =>
    match rest.dropWhile fun b ↦ PlainByte b with
    | 0x22 :: 0x3a :: 0x22 :: rest' =>
      if (rest'.dropWhile fun b ↦ PlainByte b) = [0x22, 0x7d] then do
        let key ← String.fromUTF8? ⟨(rest.takeWhile fun b ↦ PlainByte b).toArray⟩
        let string ← String.fromUTF8? ⟨(rest'.takeWhile fun b ↦ PlainByte b).toArray⟩
        return .record [(key, .string string)]
      else none
    | _ => none
  | _ => none

theorem fromUTF8?_utf8 (s : String) : String.fromUTF8? ⟨(utf8 s).toArray⟩ = some s := by
  have hbytes : (⟨(utf8 s).toArray⟩ : ByteArray) = s.toByteArray := by
    rw [utf8, Array.toArray_toList]
    rfl
  rw [hbytes, String.fromUTF8?, dif_pos s.isValidUTF8]
  rfl

theorem utf8_of_fromUTF8? {bytes : List UInt8} {s : String}
    (h : String.fromUTF8? ⟨bytes.toArray⟩ = some s) : utf8 s = bytes := by
  rw [String.fromUTF8?] at h
  split at h
  · obtain rfl := Option.some.inj h
    rfl
  · cases h

theorem span_plain {bytes rest : List UInt8} (h : PlainText bytes) :
    (bytes ++ 0x22 :: rest).takeWhile (fun b ↦ PlainByte b) = bytes ∧
      (bytes ++ 0x22 :: rest).dropWhile (fun b ↦ PlainByte b) = 0x22 :: rest := by
  have hplain : ∀ b ∈ bytes, decide (PlainByte b) = true := fun b hb ↦ decide_eq_true (h b hb)
  rw [List.takeWhile_append_of_pos hplain, List.dropWhile_append_of_pos hplain]
  exact ⟨by simp [PlainByte], rfl⟩

/-- What it reads is such an object. -/
theorem plainReader_eq_some {text : List UInt8} {value : JsonValue}
    (h : plainReader text = some value) : ∃ key message, PlainText (utf8 message) ∧
      text = recordText key (utf8 message) ∧ value = .record [(key, .string message)] := by
  unfold plainReader at h
  split at h
  · rename_i rest
    split at h
    · rename_i rest' hrest
      split at h
      · rename_i hend
        obtain ⟨key, hkey, h⟩ := Option.bind_eq_some_iff.1 h
        obtain ⟨message, hmessage, h⟩ := Option.bind_eq_some_iff.1 h
        have htake := utf8_of_fromUTF8? hkey
        have htake' := utf8_of_fromUTF8? hmessage
        refine ⟨key, message, fun b hb ↦ ?_, ?_, (Option.some.inj h).symm⟩
        · rw [htake'] at hb
          exact of_decide_eq_true (List.mem_takeWhile_imp (p := fun b ↦ PlainByte b) hb)
        · rw [recordText, htake, htake', ← hend, List.takeWhile_append_dropWhile, ← hrest,
            List.takeWhile_append_dropWhile]
      · cases h
    · cases h
  · cases h

theorem readsStrings_plainReader : ReadsStrings plainReader where
  record := by
    intro key message hkey hmessage
    obtain ⟨htake, hdrop⟩ :=
      @span_plain _ (0x3a :: 0x22 :: (utf8 message ++ [0x22, 0x7d])) hkey
    obtain ⟨htake', hdrop'⟩ := @span_plain _ [0x7d] hmessage
    rw [recordText, plainReader]
    simp only [hdrop, hdrop', if_true, htake, htake', fromUTF8?_utf8]
    rfl
  literal := by
    intro text value field string hvalue hfield
    obtain ⟨key, message, hplain, rfl, rfl⟩ := plainReader_eq_some hvalue
    have hstring : message = string := by
      rw [JsonValue.record, List.foldl_cons, List.foldl_nil, JsonValue.insertField,
        JsonValue.index, List.lookup_cons] at hfield
      split at hfield
      · exact Option.some.inj hfield
      · cases hfield
    exact ⟨0x7b :: 0x22 :: (utf8 key ++ [0x22, 0x3a]), utf8 message, [0x7d], by simp [recordText],
      by simp, hstring ▸ literal_of_plainText hplain⟩

/-- A plain error text survives, by either report. -/
theorem error_text_survives_iff_plain :
    Survives 64 plainReader {} msgError 2048 (errorText (utf8 "Connection failed"))
        (outputSendError (some (utf8 "Connection failed"))) "Connection failed" ∧
      Survives 64 plainReader {} msgDisconnected 1024 (disconnectedText (utf8 "Connection failed"))
        (outputSendDisconnected (some (utf8 "Connection failed"))) "Connection failed" :=
  have h := @error_text_survives_iff plainReader readsStrings_plainReader 64 {} rfl
    "Connection failed" (by decide)
  ⟨h.1.2 ⟨by decide, by decide, rfl⟩, h.2.2 ⟨by decide, by decide, rfl⟩⟩

/-- **A quoted name in an error text breaks the line**: the reader rejects it and the session has
the text that stands in for any message. **A text that fills the buffer** is read from beyond it. -/
theorem quoted_text_lost :
    outputSendError (some (utf8 "no \"dc01\"")) =
        some (utf8 "\x7b\"message\":\"no \"dc01\"\"\x7d") ∧
      handleNativeOutput 64 plainReader {} msgError
          (utf8 "\x7b\"message\":\"no \"dc01\"\"\x7d") [] =
        some { error := some "unknown native FreeRDP error" } ∧
      ¬ Survives 64 plainReader {} msgError 2048 (errorText (utf8 "no \"dc01\""))
        (outputSendError (some (utf8 "no \"dc01\""))) "no \"dc01\"" ∧
      outputSendError (some (List.replicate 2035 0x61)) = none := by
  have hsent : outputSendError (some (utf8 "no \"dc01\"")) =
      some (utf8 "\x7b\"message\":\"no \"dc01\"\"\x7d") :=
    sendFormatted_of_lt le_rfl (by decide)
  have hlost : plainReader (utf8 "\x7b\"message\":\"no \"dc01\"\"\x7d") = none := by
    decide
  refine ⟨hsent, ?_, ?_, ?_⟩
  · rw [handleNativeOutput_error, if_neg (by decide), errorMessage, hlost]
    rfl
  · rintro ⟨payload, hpayload, -, hjson, -⟩
    rw [hsent] at hpayload
    obtain rfl := Option.some.inj hpayload
    rw [hlost] at hjson
    cases hjson
  · have hlength : (errorText (List.replicate 2035 0x61)).length = 2049 := by
      rw [errorText, List.length_append, List.length_append, List.length_replicate]
      rfl
    exact (sendFormatted_of_le le_rfl (by decide) (by rw [Option.getD_some]; omega)).trans
      (if_neg (by rw [Option.getD_some]; omega))

end RdpMcp
